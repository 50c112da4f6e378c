import ExchangeNode.Proofs.Session.Moving
import ExchangeNode.Proofs.Session.Waiting

/-!
# One loop after another

A registration starts a loop, and before that waits for the end of the current one. A loop that
somebody else has told to stop is current no longer: the registration does not wait for it, and may
return while it still waits for the directory. Then two loops are at work.

`loops_take_turns` says after which registrations that cannot happen, and
`loops_overlap_after_impatientReturn` that it does happen.
-/

namespace ExchangeNode.Session

def Event.wakes? : Event → Option Nat
  | .wake loop => some loop
  | _ => none

/-- The loop has sent a heartbeat, and has not done yet with what came of it. -/
def InRound (s : Session) (k : Nat) : Prop :=
  ∃ l, s.loops.get? k = some l ∧ l.stage.wait?.isSome

/-- A loop sends a heartbeat or asks for a new registration. -/
inductive Calls (s : Session) (event : Event) (k : Nat) : Prop where
  | beats {l wait heartbeat} (found : (s.step event).1.loops.get? k = some l)
      (stage : l.stage = .beating wait)
      (sent : .call wait.call (.keepAlive heartbeat) ∈ (s.step event).2)
  | reconnects {l wait registration} (found : (s.step event).1.loops.get? k = some l)
      (stage : l.stage = .reconnecting wait)
      (asked : .call wait.call (.register registration) ∈ (s.step event).2)

/-- A loop that was told to stop does not wake from its sleep any more. -/
def Heeding (s : Session) (event : Event) : Prop :=
  ∀ k ∈ event.wakes?, ∀ l ∈ s.loops.get? k, l.stopped → l.stage = .starting

instance (s : Session) (event : Event) : Decidable (Heeding s event) :=
  inferInstanceAs
    (Decidable (∀ k ∈ event.wakes?, ∀ l ∈ s.loops.get? k, l.stopped → l.stage = .starting))

/-- In all runs of a kind, only the current loop and later ones make calls. -/
def Supersedes (allowed : Session → List Event → Prop) (s : Session) : Prop :=
  ∀ events event k, allowed s (events ++ [event]) → Calls (s.run events).1 event k →
    s.current = some k ∨ s.nextLoop ≤ k

/-- No loop is left but the current one. -/
def Alone (s : Session) : Prop := ∀ k, s.Alive k → s.current = some k

variable {s t : Session} {event : Event} {turn : Turn} {k : Nat} {l : Liveness}

/-! ### Who makes calls -/

theorem not_stays_of_call (numbered : Numbered s) (course : Course s event turn) {wait : Wait}
    (waits : l.stage.wait? = some wait) {request : Request}
    (asked : .call wait.call request ∈ turn.2) : ¬ Stays s k l := by
  rintro ⟨m, before, same, -⟩
  -- A loop that had waited for this call already would wait for one with a lower number.
  have old := numbered.made k m wait before (same ▸ waits)
  have new := (call_course course asked).1
  omega

/-- A loop makes a call when it wakes from its sleep, or hears the answer to its heartbeat. -/
theorem origin_of_call (numbered : Numbered s) (course : Course s event turn)
    (found : turn.1.loops.get? k = some l) {wait : Wait} (waits : l.stage.wait? = some wait)
    {request : Request} (asked : .call wait.call request ∈ turn.2) :
    ∃ m, s.loops.get? k = some m ∧
      ((event = .wake k ∧ ∃ wake, m.stage = .sleeping wake) ∨ ∃ before, m.stage = .beating before) := by
  have moved : ¬ Stays s k l := not_stays_of_call numbered course waits asked
  cases course with
  | beats before asleep =>
    obtain stays | ⟨rfl, -⟩ := stays_of_set found
    · exact absurd stays moved
    · exact ⟨_, before, .inl ⟨rfl, _, asleep⟩⟩
  | reconnects hears beating | moves hears beating =>
    obtain stays | ⟨rfl, -⟩ := stays_of_set found
    · exact absurd stays moved
    · exact ⟨_, (loopHears?_spec hears).1, .inr ⟨_, beating⟩⟩
  -- Jobs make calls too, and leave all loops where they are.
  | applies => exact absurd (stays_of_stopCurrent found).1 moved
  | cleared | unregisters | asks => exact absurd (stays_of_get? found) moved
  | _ => simp [finish] at asked

theorem origin_of_calls (numbered : Numbered s) (calls : Calls s event k) :
    ∃ m, s.loops.get? k = some m ∧
      ((event = .wake k ∧ ∃ wake, m.stage = .sleeping wake) ∨ ∃ before, m.stage = .beating before) := by
  cases calls with
  | beats found stage asked | reconnects found stage asked =>
    exact origin_of_call numbered (step_course s event) found (by rw [stage]; rfl) asked

theorem current_of_wakes (regular : Regular s) (heeding : Heeding s (.wake k))
    (found : s.loops.get? k = some l) {wake : Nat} (asleep : l.stage = .sleeping wake) :
    s.current = some k := by
  -- Whoever is not current has been told to stop, and such a loop does not wake.
  refine (regular.told k l found).resolve_right fun stopped => ?_
  have starting := heeding k rfl l found stopped
  rw [asleep] at starting
  cases starting

/-! ### What becomes of the loops that a registration leaves behind -/

/-- Only a registration that returns begins a loop, and makes that the current one. -/
theorem slot_course (course : Course s event turn) :
    (turn.1.nextLoop = s.nextLoop ∧ ∀ k, turn.1.current = some k → s.current = some k) ∨
      ∃ job address, .finish job (.exchange address) ∈ turn.2 := by
  cases course with
  | adopts => exact .inr ⟨_, _, List.mem_cons_self⟩
  | clears | applies | stops | stopsAtOnce | revokes | revokesAtLast => exact .inl ⟨rfl, nofun⟩
  | _ => exact .inl ⟨rfl, fun _ isCurrent => isCurrent⟩

theorem slot_of_returned (course : Course s event turn) {job : Nat} {address : String}
    (returned : .finish job (.exchange address) ∈ turn.2) :
    turn.1.nextLoop = s.nextLoop + 1 ∧ turn.1.current = some s.nextLoop := by
  obtain ⟨_, _, _, _, _, -, rfl⟩ := adopts_of_returned course returned
  exact ⟨rfl, rfl⟩

/-- A loop that was there at a time and was not current then. -/
def Old (t : Session) (k : Nat) : Prop := t.current ≠ some k ∧ k < t.nextLoop

theorem current_or_later (new : ¬ Old t k) : t.current = some k ∨ t.nextLoop ≤ k := by
  by_cases isCurrent : t.current = some k
  · exact .inl isCurrent
  · exact .inr (Nat.le_of_not_lt fun before => new ⟨isCurrent, before⟩)

/-- Old loops do not become current again. -/
structure Since (t s : Session) : Prop where
  regular : Regular s
  later : t.nextLoop ≤ s.nextLoop
  current : ∀ k, s.current = some k → ¬ Old t k

theorem since_refl (regular : Regular t) : Since t t where
  regular := regular
  later := Nat.le_refl _
  current _ isCurrent old := old.1 isCurrent

theorem since_step (since : Since t s) (event : Event) : Since t (s.step event).1 := by
  have course := step_course s event
  have regular := regular_step since.regular event
  obtain ⟨next, current⟩ | ⟨job, address, returned⟩ := slot_course course
  · exact ⟨regular, next ▸ since.later, fun k isCurrent => since.current k (current k isCurrent)⟩
  · obtain ⟨next, current⟩ := slot_of_returned course returned
    refine ⟨regular, next ▸ Nat.le_succ_of_le since.later, fun k isCurrent old => ?_⟩
    rw [current] at isCurrent
    cases isCurrent
    exact absurd old.2 (Nat.not_lt.mpr since.later)

/-- No old loop has a heartbeat in flight. -/
def Calm (t s : Session) : Prop :=
  ∀ k l wait, Old t k → s.loops.get? k = some l → l.stage ≠ .beating wait

/-- Without a heartbeat in flight an old loop makes no call any more, if it stops in time. -/
theorem not_calls_of_calm (since : Since t s) (heeding : Heeding s event) (calm : Calm t s)
    (old : Old t k) : ¬ Calls s event k := by
  intro calls
  obtain ⟨l, found, ⟨rfl, wake, asleep⟩ | ⟨wait, beating⟩⟩ :=
    origin_of_calls since.regular.numbered calls
  · exact since.current k (current_of_wakes since.regular heeding found asleep) old
  · exact calm k l wait old found beating

theorem calm_step (since : Since t s) (heeding : Heeding s event) (calm : Calm t s) :
    Calm t (s.step event).1 := by
  intro k l wait old found stage
  obtain ⟨active, loops⟩ := loops_course (step_course s event)
  obtain ⟨m, before, same, -⟩ | ⟨-, turns⟩ := loops k l found
  · exact calm k m wait old before (same.trans stage)
  · cases turns with
    | begins _ starting =>
      rw [stage] at starting
      cases starting
    | goesOn _ _ reached =>
      rw [stage] at reached
      cases reached with
      | rests free => cases free
      | beats sent => exact not_calls_of_calm since heeding calm old (.beats found stage sent)

theorem calm_run {events : List Event} (since : Since t s) (calm : Calm t s)
    (heeding : Throughout Heeding s events) : Since t (s.run events).1 ∧ Calm t (s.run events).1 :=
  throughout_invariant (fun s => Since t s ∧ Calm t s)
    (fun _ event heeds holds => ⟨since_step holds.1 event, calm_step holds.1 heeds holds.2⟩)
    ⟨since, calm⟩ heeding

theorem ended_run (events : List Event) (since : Since t s) (ended : ∀ k, Old t k → ¬ s.Alive k) :
    ∀ k, Old t k → ¬ (s.run events).1.Alive k := by
  refine (run_invariant (fun s => Since t s ∧ ∀ k, Old t k → ¬ s.Alive k) ?_ ⟨since, ended⟩ events).2
  intro s event ⟨since, ended⟩
  refine ⟨since_step since event, fun k old left => ?_⟩
  obtain before | ⟨rfl, -⟩ := alive_or_begins (step_course s event) left
  · exact ended k old before
  · exact absurd old.2 (Nat.not_lt.mpr since.later)

theorem supersedes_of_alone (regular : Regular t) (alone : Alone t) :
    Supersedes (fun _ _ => True) t := by
  intro events event k _ calls
  refine current_or_later fun old => ?_
  have ended : ∀ k, Old t k → ¬ t.Alive k := fun k old left => old.1 (alone k left)
  obtain ⟨l, found, -⟩ := origin_of_calls (regular_run regular events).numbered calls
  exact ended_run events (since_refl regular) ended k old (alive_of_get? found)

/-! ### When a registration has returned -/

/-- The numbers of loops are given out in order. -/
def Allotted (s : Session) : Prop := ∀ k, s.Alive k → k < s.nextLoop

theorem allotted_step (allotted : Allotted s) (event : Event) : Allotted (s.step event).1 := by
  intro k left
  have course := step_course s event
  have grows : s.nextLoop ≤ (s.step event).1.nextLoop := by
    obtain ⟨next, -⟩ | ⟨job, address, returned⟩ := slot_course course
    · exact Nat.le_of_eq next.symm
    · exact (slot_of_returned course returned).1 ▸ Nat.le_succ _
  obtain before | ⟨rfl, job, address, returned⟩ := alive_or_begins course left
  · exact Nat.lt_of_lt_of_le (allotted k before) grows
  · rw [(slot_of_returned course returned).1]
    exact Nat.lt_succ_self _

theorem allotted_fresh (options : KeepAliveOptions) (world : Surroundings) :
    Allotted (fresh options world) := nofun

theorem heeding_answer (s : Session) (call : Nat) (reply : Reply) :
    Heeding s (.answer call reply) := nofun

theorem calls_of_beating (numbered : Numbered s) (found : s.loops.get? k = some l) {wait : Wait}
    (beating : l.stage = .beating wait) {registration : Registration}
    (repeats : s.registration = some registration) (reached : s.directory.isSome) :
    Calls s (.answer wait.call (command .reconnect)) k := by
  have hears := loopHears?_answer numbered found (by rw [beating]; rfl) (command .reconnect)
  have turn := step_of_reconnect hears beating rfl rfl repeats reached
  have asks : (s.step (.answer wait.call (command .reconnect))).1.loops.get? k =
      some { l with failures := 0, stage := .reconnecting s.newWait } := by
    rw [turn]
    exact (Table.get?_set ..).trans (if_pos rfl)
  have asked : .call s.nextCall (.register
      { registration with previousNode := s.identity.elim (-1) (·.node) }) ∈
      (s.step (.answer wait.call (command .reconnect))).2 := by
    rw [turn]
    exact List.mem_cons_self
  exact .reconnects asks rfl asked

/-- After a registration has returned, loops that stop in time leave the calls to the new loop just
when none of them has a heartbeat in flight. -/
theorem supersedes_iff (regular : Regular s) (allotted : Allotted s) {job : Nat} {address : String}
    (returned : .finish job (.exchange address) ∈ (s.step event).2) :
    Supersedes (Throughout Heeding) (s.step event).1 ↔
      ∀ k l wait, (s.step event).1.loops.get? k = some l → l.stage ≠ .beating wait := by
  have after := regular_step regular event
  have course := step_course s event
  constructor
  -- The directory may answer a heartbeat in flight with the order to register again.
  · intro supersedes k l wait found beating
    have none := (adopted_of_returned course returned).2 k l
    obtain ⟨_, _, _, _, _, -, turn⟩ := adopts_of_returned course returned
    have calls : Calls (s.step event).1 (.answer wait.call (command .reconnect)) k :=
      calls_of_beating after.numbered found beating (by rw [turn]; rfl)
        (by rw [turn]; rfl)
    have alive := alive_of_get? found
    obtain isCurrent | later := supersedes [] _ k ⟨heeding_answer _ _ _, trivial⟩ calls
    -- The current loop has not begun yet, and later ones are not there yet.
    · have starting := none isCurrent found
      rw [beating] at starting
      cases starting
    · exact absurd (allotted_step allotted event k alive) (Nat.not_lt.mpr later)
  -- Without one, old loops are asleep, and those that were told to stop do not wake.
  · intro quiet events next k heeding calls
    refine current_or_later fun old => ?_
    obtain ⟨first, last⟩ := (throughout_append _ events [next]).mp heeding
    obtain ⟨since, calm⟩ :=
      calm_run (since_refl after) (fun k l wait _ found => quiet k l wait found) first
    exact not_calls_of_calm since last.1 calm old calls

/-! ### Rounds that overlap -/

/-- What holds until a registration returns with a loop in its round: only the loop that was begun
last can be current, or in a round. -/
structure Ordered (s : Session) : Prop where
  regular : Regular s
  current : ∀ k, s.current = some k → k + 1 = s.nextLoop
  rounds : ∀ k, InRound s k → k + 1 = s.nextLoop

/-- A registration returns while a loop is in its round. -/
def ReturnsEarly (s : Session) (event : Event) : Prop :=
  (∃ job address, .finish job (.exchange address) ∈ (s.step event).2) ∧
    ∃ k, InRound (s.step event).1 k

theorem origin_of_inRound (regular : Regular s) (heeding : Heeding s event)
    (inRound : InRound (s.step event).1 k) : InRound s k ∨ s.current = some k := by
  obtain ⟨l, found, waits⟩ := inRound
  have course := step_course s event
  obtain ⟨active, loops⟩ := loops_course course
  obtain ⟨m, before, same, -⟩ | ⟨-, turns⟩ := loops k l found
  · exact .inl ⟨m, before, same ▸ waits⟩
  -- The loop takes a turn and waits after that, so it has made a call.
  · obtain ⟨wait, isWait⟩ := Option.isSome_iff_exists.mp waits
    obtain ⟨request, asked⟩ := asked_of_turns turns isWait
    obtain ⟨m, before, ⟨rfl, wake, asleep⟩ | ⟨sent, beating⟩⟩ :=
      origin_of_call regular.numbered course found isWait asked
    · exact .inr (current_of_wakes regular heeding before asleep)
    · exact .inl ⟨m, before, by rw [beating]; rfl⟩

theorem ordered_step (ordered : Ordered s) (heeding : Heeding s event) :
    Ordered (s.step event).1 ∨ ReturnsEarly s event := by
  have course := step_course s event
  have after := regular_step ordered.regular event
  obtain ⟨next, current⟩ | ⟨job, address, returned⟩ := slot_course course
  · have rounds : ∀ k, InRound (s.step event).1 k → k + 1 = s.nextLoop := fun k inRound =>
      (origin_of_inRound ordered.regular heeding inRound).elim (ordered.rounds k)
        (ordered.current k)
    exact .inl ⟨after, fun k isCurrent => next ▸ ordered.current k (current k isCurrent),
      next ▸ rounds⟩
  -- A registration returns: the order is kept just when no loop is in its round.
  · by_cases early : ∃ k, InRound (s.step event).1 k
    · exact .inr ⟨⟨job, address, returned⟩, early⟩
    · obtain ⟨next, current⟩ := slot_of_returned course returned
      refine .inl ⟨after, fun k isCurrent => ?_, fun k inRound => absurd ⟨k, inRound⟩ early⟩
      rw [current] at isCurrent
      cases isCurrent
      exact next.symm

theorem returnsEarly_of_overlap {events : List Event} (ordered : Ordered s)
    (heeding : Throughout Heeding s events) {j : Nat} (first : InRound (s.run events).1 j)
    (second : InRound (s.run events).1 k) (different : j ≠ k) :
    ∃ before event after, events = before ++ event :: after ∧
      ReturnsEarly (s.run before).1 event := by
  induction events generalizing s with
  | nil =>
    have same : j + 1 = k + 1 := (ordered.rounds j first).trans (ordered.rounds k second).symm
    exact absurd (Nat.succ.inj same) different
  | cons event rest ih =>
    rw [exists_split_cons]
    obtain after | early := ordered_step ordered heeding.1
    · exact .inr (ih after heeding.2 first second)
    · exact .inl early

theorem ordered_fresh (options : KeepAliveOptions) (world : Surroundings) :
    Ordered (fresh options world) where
  regular := regular_fresh options world
  current := nofun
  rounds := nofun

/-! ### Users that wait -/

theorem alone_of_returned (settled : Settled s) {job : Nat} {address : String}
    (returned : .finish job (.exchange address) ∈ (s.step event).2) : Alone (s.step event).1 := by
  have course := step_course s event
  obtain ⟨_, _, _, _, _, hears, -⟩ := adopts_of_returned course returned
  intro k left
  obtain before | ⟨rfl, -⟩ := alive_or_begins course left
  -- The registration has waited for the end of every loop that was there.
  · exact absurd before (not_alive_of_registering settled (jobHears?_spec hears))
  · exact (slot_of_returned course returned).2

/-- There is at most one loop. -/
def Single (s : Session) : Prop := ∀ j k, s.Alive j → s.Alive k → j = k

theorem single_step (settled : Settled s) (single : Single s) : Single (s.step event).1 := by
  intro j k left right
  have course := step_course s event
  by_cases returns : ∃ job address, .finish job (.exchange address) ∈ (s.step event).2
  · obtain ⟨job, address, returned⟩ := returns
    have alone := alone_of_returned settled returned
    exact Option.some.inj ((alone j left).symm.trans (alone k right))
  · have before : ∀ i, (s.step event).1.Alive i → s.Alive i := fun i left =>
      (alive_or_begins course left).resolve_right fun ⟨_, returned⟩ => returns returned
    exact single j k (before j left) (before k right)

theorem single_fresh (options : KeepAliveOptions) (world : Surroundings) :
    Single (fresh options world) := nofun

theorem settled_single_run {events : List Event} (settled : Settled s) (single : Single s)
    (proper : Throughout Proper s events) : Settled (s.run events).1 ∧ Single (s.run events).1 :=
  throughout_invariant (fun s => Settled s ∧ Single s)
    (fun _ _ proper holds => ⟨settled_step holds.1 proper, single_step holds.1 holds.2⟩)
    ⟨settled, single⟩ proper

/-! ### All runs -/

/-- When a registration returns after a run, the loop that it has begun, and later ones, are the only
ones to make calls from then on just when no heartbeat is in flight at that moment; if there is no
other loop at all, they are even if loops take their time to stop. Two loops are in a round at the
same time only after a registration has returned while a loop was in its round. Neither happens to a
user who lets the calls that wait for a loop return before the next registration. -/
theorem loops_take_turns (options : KeepAliveOptions) (world : Surroundings)
    (events : List Event) :
    (∀ event job address,
      .finish job (.exchange address) ∈ (((fresh options world).run events).1.step event).2 →
      (Supersedes (Throughout Heeding) (((fresh options world).run events).1.step event).1 ↔
        ∀ k l wait,
          (((fresh options world).run events).1.step event).1.loops.get? k = some l →
          l.stage ≠ .beating wait) ∧
      (Alone (((fresh options world).run events).1.step event).1 →
        Supersedes (fun _ _ => True) (((fresh options world).run events).1.step event).1)) ∧
    (Throughout Heeding (fresh options world) events →
      ∀ j k, InRound ((fresh options world).run events).1 j →
        InRound ((fresh options world).run events).1 k → j ≠ k →
        ∃ before event after, events = before ++ event :: after ∧
          ReturnsEarly ((fresh options world).run before).1 event) ∧
    (Throughout Proper (fresh options world) events →
      Single ((fresh options world).run events).1 ∧
      ∀ event job address,
        .finish job (.exchange address) ∈ (((fresh options world).run events).1.step event).2 →
        Alone (((fresh options world).run events).1.step event).1) := by
  have regular := regular_run (regular_fresh options world) events
  refine ⟨?_, ?_, ?_⟩
  · intro event job address returned
    have allotted : Allotted ((fresh options world).run events).1 :=
      run_invariant Allotted (fun _ event holds => allotted_step holds event)
        (allotted_fresh options world) events
    exact ⟨supersedes_iff regular allotted returned,
      supersedes_of_alone (regular_step regular event)⟩
  · intro heeding j k first second different
    exact returnsEarly_of_overlap (ordered_fresh options world) heeding first second different
  · intro proper
    obtain ⟨settled, single⟩ :=
      settled_single_run (settled_fresh options world) (single_fresh options world) proper
    exact ⟨single, fun event job address returned => alone_of_returned settled returned⟩

/-- The user waits for the loop to stop, and registers again. -/
def patientReturn : List Event :=
  firstHeartbeat ++
    [.answer 1 (command .nothing), .shutdown 1, .heed 0, .proceed 1,
      .register 2 "127.0.0.1:9000" (.ofNode "sensor-1" [10] none)]

theorem loops_take_turns_after_patientReturn :
    Throughout Heeding (fresh .standard stillWorld) patientReturn ∧
      Throughout Proper (fresh .standard stillWorld) patientReturn ∧
      .finish 2 (.exchange "127.0.0.1:10000") ∈
        (((fresh .standard stillWorld).run patientReturn).1.step (.answer 2 (grant 8 1008))).2 ∧
      Single ((fresh .standard stillWorld).run patientReturn).1 ∧
      Alone (((fresh .standard stillWorld).run patientReturn).1.step (.answer 2 (grant 8 1008))).1 ∧
      Supersedes (fun _ _ => True)
        (((fresh .standard stillWorld).run patientReturn).1.step (.answer 2 (grant 8 1008))).1 := by
  obtain ⟨returns, -, waits⟩ := loops_take_turns .standard stillWorld patientReturn
  have proper : Throughout Proper (fresh .standard stillWorld) patientReturn := by decide
  have returned : .finish 2 (.exchange "127.0.0.1:10000") ∈
      (((fresh .standard stillWorld).run patientReturn).1.step (.answer 2 (grant 8 1008))).2 := by
    decide
  obtain ⟨single, alone⟩ := waits proper
  have last := alone _ _ _ returned
  exact ⟨by decide, proper, returned, single, last, (returns _ _ _ returned).2 last⟩

/-- The loop is told to stop while its heartbeat is in flight. A registration does not wait for it,
and begins another loop. -/
def impatientReturn : List Event :=
  firstHeartbeat ++
    [.shutdown 1, .register 2 "127.0.0.1:9000" (.ofNode "sensor-1" [10] none),
      .answer 2 (grant 8 1008), .wake 1, .elapse 5000, .wake 1]

/-- Both loops are in a round, and the older one registers the node again. -/
theorem loops_overlap_after_impatientReturn :
    Throughout Heeding (fresh .standard stillWorld) impatientReturn ∧
      .finish 2 (.exchange "127.0.0.1:10000") ∈
        ((fresh .standard stillWorld).run impatientReturn).2 ∧
      ((fresh .standard stillWorld).run impatientReturn).1.current = some 1 ∧
      InRound ((fresh .standard stillWorld).run impatientReturn).1 0 ∧
      InRound ((fresh .standard stillWorld).run impatientReturn).1 1 ∧
      Calls ((fresh .standard stillWorld).run impatientReturn).1
        (.answer 1 (command .reconnect)) 0 := by
  refine ⟨by decide, by decide, by decide, ?_, ?_, ?_⟩
  · exact ⟨⟨true, 0, .beating ⟨1, 15000⟩⟩, by decide, rfl⟩
  · exact ⟨⟨false, 0, .beating ⟨3, 20000⟩⟩, by decide, rfl⟩
  · exact @Calls.reconnects _ _ _ ⟨true, 0, .reconnecting ⟨4, 20000⟩⟩ ⟨4, 20000⟩
      { Registration.ofNode "sensor-1" [10] none with previousNode := 8 } (by decide) rfl (by decide)

end ExchangeNode.Session
