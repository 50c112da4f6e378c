import ExchangeNode.Proofs.Session.Loops

/-!
# Bringing loops to rest

The loops that have been told to stop end as soon as what they wait for is over. Unless one of them
leaves by an order of the directory, nothing else of a session changes by that.
-/

namespace ExchangeNode.Session

variable {s : Session} {k : Nat} {l m : Liveness}

/-- A loop that pauses and has been told to stop ends. -/
theorem heed_pause (s : Session) (k : Nat) (stopped : m.stopped) :
    ∃ loops, (s.pause k m).heed k = { s with loops } ∧
      ∀ j l, loops.get? j = some l → s.loops.get? j = some l ∧ j ≠ k := by
  cases live : s.live? with
  | none =>
    refine ⟨s.loops.erase k, ?_, fun j l found => (Table.of_get?_erase found).symm⟩
    simp [pause, heed, live]
  | some identity =>
    refine ⟨(s.pause k m).loops.erase k, ?_, ?_⟩
    · simp [pause, heed, live, stopped, endLoop]
    · intro j l found
      obtain ⟨different, left⟩ := Table.of_get?_erase found
      simp only [pause, live, Table.get?_set, if_neg different] at left
      exact ⟨left, different⟩

/-- One loop comes to rest. -/
theorem lull_loop (regular : Regular s) (notCurrent : s.current ≠ some k)
    (calm : ∀ l wait order, s.loops.get? k = some l → l.stage ≠ .moving wait order) :
    ∃ events phase loops, s.run events = ({ s with phase, loops }, []) ∧
      ∀ j l, loops.get? j = some l → s.loops.get? j = some l ∧ (j = k → l.stage = .starting) := by
  cases found : s.loops.get? k with
  | none =>
    refine ⟨[], s.phase, s.loops, rfl, fun j l isLoop => ⟨isLoop, fun same => ?_⟩⟩
    rw [same, found] at isLoop
    cases isLoop
  | some l =>
    have stopped : l.stopped := (regular.told k l found).resolve_left notCurrent
    cases stage : l.stage with
    | starting =>
      refine ⟨[], s.phase, s.loops, rfl, fun j m isLoop => ⟨isLoop, fun same => ?_⟩⟩
      rw [same, found] at isLoop
      cases isLoop
      exact stage
    | sleeping wake =>
      refine ⟨[.heed k], s.phase, s.loops.erase k, ?_, fun j m isLoop => ?_⟩
      · simp [run, step, heed, found, stopped, stage, endLoop]
      · obtain ⟨different, before⟩ := Table.of_get?_erase isLoop
        exact ⟨before, fun same => absurd same different⟩
    -- The loop is answered that there is nothing to do, and heeds what it was told.
    | beating wait =>
      have waits : l.stage.wait? = some wait := by rw [stage]; rfl
      have hears := loopHears?_answer regular.numbered found waits (command .nothing)
      obtain ⟨loops, ends, left⟩ := heed_pause s k (m := { l with failures := 0 }) stopped
      refine ⟨[.answer wait.call (command .nothing), .heed k], s.phase, loops, ?_, ?_⟩
      · have turn := step_of_loopHears? hears
        simp only [loopAnswered, stage] at turn
        simp only [run, turn]
        exact Prod.ext ends rfl
      · exact fun j m isLoop => ⟨(left j m isLoop).1, fun same => absurd same (left j m isLoop).2⟩
    -- Its registration fails, which leaves the identity as it is.
    | reconnecting wait =>
      have waits : l.stage.wait? = some wait := by rw [stage]; rfl
      have hears := loopHears?_answer regular.numbered found waits (.error .connectionClosed)
      obtain ⟨loops, ends, left⟩ := heed_pause { s with phase := .active } k
        (m := { l with failures := l.failures + 1 }) stopped
      refine ⟨[.answer wait.call (.error .connectionClosed), .heed k], .active, loops, ?_, ?_⟩
      · have turn := step_of_loopHears? hears
        simp only [loopAnswered, stage] at turn
        simp only [run, turn]
        exact Prod.ext ends rfl
      · exact fun j m isLoop => ⟨(left j m isLoop).1, fun same => absurd same (left j m isLoop).2⟩
    | moving wait order => exact absurd stage (calm l wait order found)

/-- All loops but the current one come to rest. -/
theorem lull_loops (numbers : List Nat) (regular : Regular s)
    (notCurrent : ∀ k ∈ numbers, s.current ≠ some k)
    (calm : ∀ k l wait order, s.loops.get? k = some l → l.stage ≠ .moving wait order) :
    ∃ events phase loops, s.run events = ({ s with phase, loops }, []) ∧
      ∀ j l, loops.get? j = some l →
        s.loops.get? j = some l ∧ (j ∈ numbers → l.stage = .starting) := by
  induction numbers generalizing s with
  | nil => exact ⟨[], s.phase, s.loops, rfl, fun j l isLoop => ⟨isLoop, nofun⟩⟩
  | cons k rest ih =>
    obtain ⟨first, phase, loops, turn, rests⟩ :=
      lull_loop regular (notCurrent k List.mem_cons_self) (calm k)
    have after : ({ s with phase, loops } : Session).Regular := by
      have reached := regular_run regular first
      rwa [turn] at reached
    obtain ⟨later, finalPhase, finalLoops, more, final⟩ := ih after
      (fun j member => notCurrent j (.tail _ member))
      (fun j l wait order isLoop => calm j l wait order (rests j l isLoop).1)
    refine ⟨first ++ later, finalPhase, finalLoops, ?_, fun j l isLoop => ?_⟩
    · rw [run_append, turn]
      simp only [more, List.append_nil]
    · obtain ⟨before, restsLater⟩ := final j l isLoop
      obtain ⟨original, restsFirst⟩ := rests j l before
      refine ⟨original, fun member => ?_⟩
      rcases List.mem_cons.mp member with same | member
      · exact restsFirst same
      · exact restsLater member

end ExchangeNode.Session
