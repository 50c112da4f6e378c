import ExchangeNode.Proofs.Session.Course

/-!
# What becomes of loops

In a step at most one loop takes a turn or begins; the others stay where they are, but may be told
to stop. From this follow two facts about every run: the calls that loops wait for have numbers of
their own, and every loop but the current one has been told to stop.
-/

namespace ExchangeNode.Session

variable {s : Session} {event : Event} {turn : Turn} {loop k : Nat} {l m : Liveness}

/-- A loop was there before at the same stage. -/
def Stays (s : Session) (k : Nat) (l : Liveness) : Prop :=
  ∃ m, s.loops.get? k = some m ∧ m.stage = l.stage ∧ (m.stopped → l.stopped)

theorem stays_of_get? (found : s.loops.get? k = some l) : Stays s k l := ⟨l, found, rfl, id⟩

/-! ### Single changes -/

theorem stays_of_stopCurrent (found : s.stopCurrent.loops.get? k = some l) :
    Stays s k l ∧ (s.current = some k → l.stopped) := by
  simp only [stopCurrent] at found
  cases current : s.current with
  | none =>
    rw [current] at found
    exact ⟨stays_of_get? found, by simp⟩
  | some other =>
    simp only [current, Option.elim, Table.get?_modify] at found
    split at found
    next same =>
      obtain ⟨m, isLoop, rfl⟩ := Option.map_eq_some_iff.mp found
      exact ⟨⟨m, isLoop, rfl, fun _ => rfl⟩, fun _ => rfl⟩
    next different =>
      refine ⟨stays_of_get? found, fun isCurrent => ?_⟩
      cases isCurrent
      exact absurd rfl different

theorem stays_of_set (found : (s.loops.set loop m).get? k = some l) :
    Stays s k l ∨ (k = loop ∧ l = m) := by
  rcases Table.of_get?_set found with set | ⟨-, before⟩
  · exact .inr set
  · exact .inl (stays_of_get? before)

theorem stays_of_erase (found : (s.loops.erase loop).get? k = some l) : Stays s k l :=
  stays_of_get? (Table.of_get?_erase found).2

theorem stays_of_pause (found : (s.pause loop m).loops.get? k = some l) :
    Stays s k l ∨ (k = loop ∧ l.stage.wait? = none ∧ l.stopped = m.stopped) := by
  simp only [pause] at found
  split at found
  · obtain stays | ⟨rfl, rfl⟩ := stays_of_set found
    · exact .inl stays
    · exact .inr ⟨rfl, rfl, rfl⟩
  · exact .inl (stays_of_erase found)

/-! ### One step -/

/-- A loop hears the answer to its heartbeat, and that is the order to move. -/
def Obeys (s : Session) (event : Event) (order : HeartbeatReply) : Prop :=
  ∃ loop l wait reply, s.loopHears? event = some (loop, l, reply) ∧ l.stage = .beating wait ∧
    judge .keepAlive reply = .ok order ∧ order.command = .serverChange

/-- How a loop comes to a stage by a step. -/
inductive Reached (s : Session) (event : Event) (effects : List Effect) : Stage → Prop where
  | rests {stage} (free : stage.wait? = none) : Reached s event effects stage
  | beats {wait heartbeat} (sent : .call wait.call (.keepAlive heartbeat) ∈ effects) :
      Reached s event effects (.beating wait)
  | reconnects {wait registration} (asked : .call wait.call (.register registration) ∈ effects) :
      Reached s event effects (.reconnecting wait)
  | moves {wait order identity} (asked : .call wait.call (.unregister identity) ∈ effects)
      (obeys : Obeys s event order) : Reached s event effects (.moving wait order)

/-- A loop takes its turn, or begins as the current one. -/
inductive Turns (s : Session) (event : Event) (turn : Turn) (k : Nat) (l : Liveness) : Prop where
  | goesOn {before : Liveness} (found : s.loops.get? k = some before)
      (stopped : before.stopped → l.stopped) (reached : Reached s event turn.2 l.stage)
  | begins (isCurrent : turn.1.current = some k) (starting : l.stage = .starting)
      (new : k = s.nextLoop) {job : Nat} {address : String}
      (returned : .finish job (.exchange address) ∈ turn.2)

/-- A loop that pauses after its turn. -/
theorem turns_of_pause {t : Session} {effects : List Effect}
    (before : ∀ k l, t.loops.get? k = some l → Stays s k l) (found : s.loops.get? loop = some m)
    (stopped : m.stopped → l.stopped) :
    ∀ k n, (t.pause loop l).loops.get? k = some n →
      Stays s k n ∨ (k = loop ∧ Turns s event (t.pause loop l, effects) k n) := by
  intro k n after
  obtain ⟨kept, isLoop, stage, told⟩ | ⟨rfl, free, same⟩ := stays_of_pause after
  · obtain ⟨old, first, sameStage, toldBefore⟩ := before k kept isLoop
    exact .inl ⟨old, first, sameStage.trans stage, told ∘ toldBefore⟩
  · exact .inr ⟨rfl, .goesOn found (fun told => same ▸ stopped told) (.rests free)⟩

/-- At most one loop takes a turn or begins in a step. -/
theorem loops_course (course : Course s event turn) :
    ∃ active, ∀ k l, turn.1.loops.get? k = some l →
      Stays s k l ∨ (k = active ∧ Turns s event turn k l) := by
  have stay : ∀ {t : Turn}, (∀ k l, t.1.loops.get? k = some l → Stays s k l) →
      ∃ active, ∀ k l, t.1.loops.get? k = some l →
        Stays s k l ∨ (k = active ∧ Turns s event t k l) :=
    fun stays => ⟨0, fun k l found => .inl (stays k l found)⟩
  cases course with
  | clears | applies | stops | stopsAtOnce =>
    exact stay fun k l found => (stays_of_stopCurrent found).1
  -- The current loop is told to stop twice: with the identity, and before it is waited for.
  | revokes | revokesAtLast =>
    refine stay fun k l found => ?_
    obtain ⟨⟨m, before, stage, told⟩, -⟩ := stays_of_stopCurrent found
    obtain ⟨⟨n, first, same, toldBefore⟩, -⟩ := stays_of_stopCurrent before
    exact ⟨n, first, same.trans stage, told ∘ toldBefore⟩
  | adopts =>
    refine ⟨s.nextLoop, fun k l found => ?_⟩
    obtain ⟨m, before, stage, told⟩ | ⟨rfl, rfl⟩ := stays_of_set found
    · obtain ⟨⟨n, first, same, toldBefore⟩, -⟩ := stays_of_stopCurrent before
      exact .inl ⟨n, first, same.trans stage, told ∘ toldBefore⟩
    · exact .inr ⟨rfl, .begins rfl rfl rfl List.mem_cons_self⟩
  | @beats loop _ _ _ found =>
    refine ⟨loop, fun k l after => ?_⟩
    obtain stays | ⟨rfl, rfl⟩ := stays_of_set after
    · exact .inl stays
    · exact .inr ⟨rfl, .goesOn found id (.beats List.mem_cons_self)⟩
  | @reconnects _ loop _ _ _ _ _ _ hears =>
    refine ⟨loop, fun k l after => ?_⟩
    obtain stays | ⟨rfl, rfl⟩ := stays_of_set after
    · exact .inl stays
    · exact .inr ⟨rfl, .goesOn (loopHears?_spec hears).1 id (.reconnects List.mem_cons_self)⟩
  | @moves _ loop _ _ _ _ _ _ hears beating answered ordered =>
    refine ⟨loop, fun k l after => ?_⟩
    obtain stays | ⟨rfl, rfl⟩ := stays_of_set after
    · exact .inl stays
    · exact .inr ⟨rfl, .goesOn (loopHears?_spec hears).1 id
        (.moves List.mem_cons_self ⟨_, _, _, _, hears, beating, answered, ordered⟩)⟩
  | starts found =>
    exact ⟨_, turns_of_pause (fun _ _ => stays_of_get?) found id⟩
  | pauses hears | publishes hears | movesAtOnce hears | defers hears | renews hears
  | staysAsItIs hears =>
    exact ⟨_, turns_of_pause (fun _ _ => stays_of_get?) (loopHears?_spec hears).1 id⟩
  -- The loop that goes on may be the one that was told to stop just now.
  | leaves hears moving found =>
    obtain ⟨⟨m, before, -, told⟩, -⟩ := stays_of_stopCurrent found
    exact ⟨_, turns_of_pause (fun _ _ after => (stays_of_stopCurrent after).1) before told⟩
  | dies | heeds => exact stay fun k l found => stays_of_erase found
  | _ => exact stay fun k l found => stays_of_get? found

/-- A loop is at a stage from before, or has come to it by this step. -/
theorem stage_course (course : Course s event turn) (found : turn.1.loops.get? k = some l) :
    (∃ m, s.loops.get? k = some m ∧ m.stage = l.stage) ∨ Reached s event turn.2 l.stage := by
  obtain ⟨active, loops⟩ := loops_course course
  obtain ⟨m, before, same, -⟩ | ⟨-, turns⟩ := loops k l found
  · exact .inl ⟨m, before, same⟩
  · cases turns with
    | goesOn _ _ reached => exact .inr reached
    | begins _ starting => exact .inr (.rests (by rw [starting]; rfl))

/-! ### What holds of all runs -/

/-- Every loop but the current one has been told to stop. -/
def Told (s : Session) : Prop :=
  ∀ k l, s.loops.get? k = some l → s.current = some k ∨ l.stopped

theorem told_of_stopCurrent (told : Told s) (found : s.stopCurrent.loops.get? k = some l) :
    l.stopped := by
  obtain ⟨⟨m, before, -, stopped⟩, own⟩ := stays_of_stopCurrent found
  exact (told k m before).elim own stopped

theorem told_course (told : Told s) (course : Course s event turn) : Told turn.1 := by
  -- Where the current loop stays the same, no loop has to be told anything.
  have kept : turn.1.current = s.current → Told turn.1 := by
    intro current k l found
    obtain ⟨active, loops⟩ := loops_course course
    obtain ⟨m, before, -, stopped⟩ | ⟨-, turns⟩ := loops k l found
    · exact (told k m before).imp current.trans stopped
    · cases turns with
      | goesOn before stopped => exact (told k _ before).imp current.trans stopped
      | begins isCurrent => exact .inl isCurrent
  cases course with
  | clears | applies | stops | stopsAtOnce =>
    exact fun k l found => .inr (told_of_stopCurrent told found)
  | revokes | revokesAtLast =>
    intro k l found
    obtain ⟨⟨m, before, -, stopped⟩, -⟩ := stays_of_stopCurrent found
    exact .inr (stopped (told_of_stopCurrent told before))
  -- The loop that begins is the current one now.
  | adopts =>
    intro k l found
    obtain ⟨m, before, -, stopped⟩ | ⟨rfl, rfl⟩ := stays_of_set found
    · exact .inr (stopped (told_of_stopCurrent told before))
    · exact .inl rfl
  | _ => exact kept rfl

/-- The calls that loops wait for have been made, each by one loop. -/
structure Numbered (s : Session) : Prop where
  made : ∀ k l wait, s.loops.get? k = some l → l.stage.wait? = some wait → wait.call < s.nextCall
  own : ∀ k l wait k' l' wait', s.loops.get? k = some l → s.loops.get? k' = some l' →
    l.stage.wait? = some wait → l'.stage.wait? = some wait' → wait.call = wait'.call → k = k'

theorem nextCall_course (course : Course s event turn) : s.nextCall ≤ turn.1.nextCall := by
  cases course with
  | applies | cleared | unregisters | asks | beats | reconnects | moves => exact Nat.le_succ _
  | _ => exact Nat.le_refl _

theorem call_course (course : Course s event turn) {call : Nat} {request : Request}
    (asked : .call call request ∈ turn.2) :
    call = s.nextCall ∧ turn.1.nextCall = s.nextCall + 1 := by
  cases course with
  | applies | cleared | unregisters | asks | beats | reconnects | moves =>
    cases List.mem_singleton.mp asked
    exact ⟨rfl, rfl⟩
  | _ => simp [finish] at asked

/-- A loop that takes its turn and then waits for a call has made it. -/
theorem asked_of_turns (turns : Turns s event turn k l) {wait : Wait}
    (waits : l.stage.wait? = some wait) : ∃ request, .call wait.call request ∈ turn.2 := by
  cases turns with
  | begins _ starting =>
    rw [starting] at waits
    cases waits
  | goesOn _ _ reached =>
    generalize l.stage = stage at reached waits
    cases reached with
    | rests free =>
      rw [free] at waits
      cases waits
    | beats asked | reconnects asked | moves asked =>
      cases waits
      exact ⟨_, asked⟩

/-- A call that a loop has come to wait for in a step is the one that was made in it. -/
theorem call_of_turns (course : Course s event turn) (turns : Turns s event turn k l) {wait : Wait}
    (waits : l.stage.wait? = some wait) :
    wait.call = s.nextCall ∧ turn.1.nextCall = s.nextCall + 1 := by
  obtain ⟨request, asked⟩ := asked_of_turns turns waits
  exact call_course course asked

theorem numbered_course (numbered : Numbered s) (course : Course s event turn) :
    Numbered turn.1 := by
  have later := nextCall_course course
  obtain ⟨active, loops⟩ := loops_course course
  -- A call is one from before, or the one that the active loop has just made.
  have origin : ∀ k l wait, turn.1.loops.get? k = some l → l.stage.wait? = some wait →
      (∃ m, s.loops.get? k = some m ∧ m.stage.wait? = some wait) ∨
        (k = active ∧ wait.call = s.nextCall ∧ turn.1.nextCall = s.nextCall + 1) := by
    intro k l wait found waits
    obtain ⟨m, before, same, -⟩ | ⟨isActive, turns⟩ := loops k l found
    · exact .inl ⟨m, before, same ▸ waits⟩
    · exact .inr ⟨isActive, call_of_turns course turns waits⟩
  refine ⟨?_, ?_⟩
  · intro k l wait found waits
    obtain ⟨m, before, waited⟩ | ⟨-, new, next⟩ := origin k l wait found waits
    · exact Nat.lt_of_lt_of_le (numbered.made k m wait before waited) later
    · omega
  · intro k l wait k' l' wait' found found' waits waits' same
    obtain ⟨m, before, waited⟩ | ⟨isActive, new, -⟩ := origin k l wait found waits
    · obtain ⟨m', before', waited'⟩ | ⟨-, new', -⟩ := origin k' l' wait' found' waits'
      -- Two calls from before, and then one from before and a new one, which differ.
      · exact numbered.own k m wait k' m' wait' before before' waited waited' same
      · have old := numbered.made k m wait before waited
        omega
    · obtain ⟨m', before', waited'⟩ | ⟨isActive', -⟩ := origin k' l' wait' found' waits'
      · have old := numbered.made k' m' wait' before' waited'
        omega
      · rw [isActive, isActive']

/-- What holds of every session that a run from the beginning has come to. -/
structure Regular (s : Session) : Prop where
  told : Told s
  numbered : Numbered s

theorem regular_step (regular : Regular s) (event : Event) : Regular (s.step event).1 where
  told := told_course regular.told (step_course s event)
  numbered := numbered_course regular.numbered (step_course s event)

theorem regular_run (regular : Regular s) (events : List Event) : Regular (s.run events).1 :=
  run_invariant Regular (fun _ event holds => regular_step holds event) regular events

theorem regular_fresh (options : KeepAliveOptions) (world : Surroundings) :
    Regular (fresh options world) where
  told _ _ found := nomatch found
  numbered :=
    { made := fun _ _ _ found => nomatch found
      own := fun _ _ _ _ _ _ found => nomatch found }

/-- A loop hears of the end of its own call. -/
theorem loopHears?_answer (numbered : Numbered s) (found : s.loops.get? k = some l) {wait : Wait}
    (waits : l.stage.wait? = some wait) (reply : Reply) :
    s.loopHears? (.answer wait.call reply) = some (k, l, some reply) := by
  have some : (s.loopWaiting? wait.call).isSome := by
    rw [loopWaiting?, List.find?_isSome]
    exact ⟨(k, l), Table.mem_of_get? found, by simp [waits]⟩
  obtain ⟨⟨other, m⟩, waiting⟩ := Option.isSome_iff_exists.mp some
  obtain ⟨isLoop, wait', waits', same⟩ := loopWaiting?_spec waiting
  obtain rfl := numbered.own other m wait' k l wait isLoop found waits' waits same
  rw [found] at isLoop
  cases isLoop
  simp [loopHears?, heard?, waiting]

end ExchangeNode.Session
