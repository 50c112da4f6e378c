import ExchangeNode.Proofs.Session.Succession

/-!
# When a loop wakes

A loop that goes to sleep has fixed the time of its next heartbeat: the wait that its failures so far
come to, from that moment on. Time does not pass beyond it, so the heartbeat goes out at that very
time.

`Arises` lists how a loop comes to be as it is after a step, with the failures that it counts as long
as it hears nothing.
-/

namespace ExchangeNode.Session

/-- If the loop is asleep, it sleeps from now on for as long as its failures come to. -/
def Paced (s : Session) (l : Liveness) : Prop :=
  ∀ wake, l.stage = .sleeping wake → ∃ identity, s.live? = some identity ∧
    wake = s.world.now + (s.backoff.delay (interval identity) l.failures s.world.random).millis

/-- A loop was there before, at the same stage and with the same failures. -/
def Same (s : Session) (k : Nat) (l : Liveness) : Prop :=
  ∃ m, s.loops.get? k = some m ∧ m.stage = l.stage ∧ m.failures = l.failures

/-- How a loop comes to be as it is after a step. -/
inductive Arises (s : Session) (event : Event) (t : Session) (k : Nat) (l : Liveness) : Prop where
  | stays (same : Same s k l)
  | begins (new : k = s.nextLoop) (starting : l.stage = .starting) (fresh : l.failures = 0)
  /-- It goes to sleep for the first time, or sends a heartbeat. -/
  | wakes {m} (found : s.loops.get? k = some m) (failures : m.failures = l.failures)
      (awake : ∀ wait, l.stage ≠ .reconnecting wait) (paced : Paced t l)
  | hears {m reply} (hears : s.loopHears? event = some (k, m, reply)) (paced : Paced t l)

variable {s t : Session} {event : Event} {turn : Turn} {loop k : Nat} {l m : Liveness}

theorem same_of_get? (found : s.loops.get? k = some l) : Same s k l := ⟨l, found, rfl, rfl⟩

theorem same_of_stopCurrent (found : s.stopCurrent.loops.get? k = some l) : Same s k l := by
  simp only [stopCurrent] at found
  cases current : s.current with
  | none =>
    rw [current] at found
    exact same_of_get? found
  | some other =>
    simp only [current, Option.elim, Table.get?_modify] at found
    split at found
    · obtain ⟨m, isLoop, rfl⟩ := Option.map_eq_some_iff.mp found
      exact ⟨m, isLoop, rfl, rfl⟩
    · exact same_of_get? found

theorem paced_of_waits {wait : Wait} (waits : l.stage.wait? = some wait) : Paced s l := by
  intro wake asleep
  rw [asleep] at waits
  cases waits

/-- A loop that pauses goes to sleep, and keeps its failures; the others stay. -/
theorem arises_of_pause (found : (s.pause loop m).loops.get? k = some l) :
    (k ≠ loop ∧ s.loops.get? k = some l) ∨ (k = loop ∧ l.failures = m.failures ∧
      (∃ wake, l.stage = .sleeping wake) ∧ Paced (s.pause loop m) l) := by
  simp only [pause] at found
  split at found
  next identity live =>
    obtain ⟨rfl, rfl⟩ | before := Table.of_get?_set found
    · refine .inr ⟨rfl, rfl, ⟨_, rfl⟩, ?_⟩
      rintro wake same
      cases same
      exact ⟨identity, live, rfl⟩
    · exact .inl before
  next => exact .inl (Table.of_get?_erase found)

/-- A loop that has heard something pauses; the session may have changed otherwise before. -/
theorem arises_of_hearing {reply : Option Reply} {heard : Liveness}
    (hears : s.loopHears? event = some (loop, heard, reply))
    (before : ∀ k l, t.loops.get? k = some l → Same s k l)
    (found : (t.pause loop m).loops.get? k = some l) : Arises s event (t.pause loop m) k l := by
  obtain ⟨-, kept⟩ | ⟨rfl, -, -, paced⟩ := arises_of_pause found
  · exact .stays (before k l kept)
  · exact .hears hears paced

theorem arises_of_calling {reply : Option Reply} {heard : Liveness} {wait : Wait}
    (hears : s.loopHears? event = some (loop, heard, reply)) (waits : m.stage.wait? = some wait)
    (found : (s.loops.set loop m).get? k = some l) : Arises s event t k l := by
  obtain ⟨rfl, rfl⟩ | ⟨-, before⟩ := Table.of_get?_set found
  · exact .hears hears (paced_of_waits waits)
  · exact .stays (same_of_get? before)

theorem arises_course (course : Course s event turn) (found : turn.1.loops.get? k = some l) :
    Arises s event turn.1 k l := by
  cases course with
  | clears | applies | stops | stopsAtOnce => exact .stays (same_of_stopCurrent found)
  -- The current loop is told to stop twice, which is all that happens to it.
  | revokes | revokesAtLast =>
    obtain ⟨m, before, stage, failures⟩ := same_of_stopCurrent found
    obtain ⟨n, first, stageBefore, failuresBefore⟩ := same_of_stopCurrent before
    exact .stays ⟨n, first, stageBefore.trans stage, failuresBefore.trans failures⟩
  | adopts =>
    obtain ⟨rfl, rfl⟩ | ⟨-, before⟩ := Table.of_get?_set found
    · exact .begins rfl rfl rfl
    · exact .stays (same_of_stopCurrent before)
  | starts isLoop starting =>
    obtain ⟨-, kept⟩ | ⟨rfl, failures, ⟨wake, asleep⟩, paced⟩ := arises_of_pause found
    · exact .stays (same_of_get? kept)
    · exact .wakes isLoop failures.symm (by simp [asleep]) paced
  | beats isLoop asleep =>
    obtain ⟨rfl, rfl⟩ | ⟨-, before⟩ := Table.of_get?_set found
    · exact .wakes isLoop rfl nofun (paced_of_waits rfl)
    · exact .stays (same_of_get? before)
  | pauses hears | publishes hears | movesAtOnce hears | defers hears | renews hears
  | staysAsItIs hears => exact arises_of_hearing hears (fun _ _ => same_of_get?) found
  | leaves hears => exact arises_of_hearing hears (fun _ _ => same_of_stopCurrent) found
  | reconnects hears | moves hears => exact arises_of_calling hears rfl found
  | dies | heeds => exact .stays (same_of_get? (Table.of_get?_erase found).2)
  | _ => exact .stays (same_of_get? found)

/-! ### The time of a heartbeat -/

/-- No loop sleeps past its time. -/
def Timely (s : Session) : Prop :=
  ∀ k l wake, s.loops.get? k = some l → l.stage = .sleeping wake → s.world.now ≤ wake

theorem mem_deadlines {wake : Nat} (found : s.loops.get? k = some l)
    (asleep : l.stage = .sleeping wake) : wake ∈ s.deadlines := by
  have listed : wake ∈ s.loops.entries.filterMap fun entry => entry.2.stage.wake? :=
    List.mem_filterMap.mpr ⟨(k, l), Table.mem_of_get? found, by simp [asleep, Stage.wake?]⟩
  simp only [deadlines, List.mem_append]
  exact .inl (.inl (.inl listed))

/-- Only the passing of time changes the time. -/
theorem now_step (s : Session) (event : Event) :
    (s.step event).1.world.now = s.world.now ∨ ∃ millis, event = .elapse millis := by
  by_cases outside : event.isOutside
  · cases event with
    | setClock | setRandom | setLoad => exact .inl rfl
    | elapse millis => exact .inr ⟨millis, rfl⟩
    | _ => cases outside
  · have course := s.step_course event
    generalize s.step event = turn at course
    cases course with
    | outside _ isOutside => exact absurd isOutside outside
    | _ => exact .inl rfl

theorem timely_elapse (timely : Timely s) (millis : Nat) : Timely (s.elapse millis) := by
  simp only [elapse]
  split
  next within =>
    intro k l wake found asleep
    simpa using List.all_eq_true.mp within wake (mem_deadlines found asleep)
  next => exact timely

theorem timely_step (timely : Timely s) (event : Event) : Timely (s.step event).1 := by
  rcases now_step s event with same | ⟨millis, rfl⟩
  · intro k l wake found asleep
    rw [same]
    cases arises_course (s.step_course event) found with
    | stays kept =>
      obtain ⟨m, before, stage, -⟩ := kept
      exact timely k m wake before (stage.trans asleep)
    | begins _ starting =>
      rw [starting] at asleep
      cases asleep
    | wakes _ _ _ paced | hears _ paced =>
      obtain ⟨identity, -, rfl⟩ := paced wake asleep
      rw [same]
      exact Nat.le_add_right _ _
  · exact timely_elapse timely millis

theorem timely_run (options : KeepAliveOptions) (world : Surroundings) (events : List Event) :
    Timely ((fresh options world).run events).1 :=
  run_invariant Timely (fun _ event timely => timely_step timely event)
    (by simp [Timely, fresh]) events

/-- A heartbeat is sent by a loop whose sleep is over. -/
theorem due_of_keepAlive {call : Nat} {heartbeat : Heartbeat}
    (sent : .call call (.keepAlive heartbeat) ∈ (s.step event).2) :
    ∃ k l wake, event = .wake k ∧ s.loops.get? k = some l ∧ l.stage = .sleeping wake ∧
      wake ≤ s.world.now := by
  have course := s.step_course event
  generalize turn : s.step event = after at course sent
  cases course with
  | @beats loop l wake _ found asleep =>
    refine ⟨loop, l, wake, rfl, found, asleep, ?_⟩
    rcases Nat.lt_or_ge s.world.now wake with early | due
    · have idle : s.step (.wake loop) = (s, []) := by
        simp only [step, Session.wake, found, asleep, if_neg (Nat.not_le.mpr early)]
      rw [idle] at turn
      cases turn ▸ sent
    · exact due
  | applies | cleared | unregisters | asks | reconnects | moves => cases List.mem_singleton.mp sent
  | _ => simp [finish] at sent

/-- It goes out at the time for which it was planned. -/
theorem exact_of_keepAlive (timely : Timely s) {call : Nat} {heartbeat : Heartbeat}
    (sent : .call call (.keepAlive heartbeat) ∈ (s.step event).2) :
    ∃ k l, event = .wake k ∧ s.loops.get? k = some l ∧ l.stage = .sleeping s.world.now := by
  obtain ⟨k, l, wake, rfl, found, asleep, due⟩ := due_of_keepAlive sent
  have planned := timely k l wake found asleep
  exact ⟨k, l, rfl, found, Nat.le_antisymm due planned ▸ asleep⟩

end ExchangeNode.Session
