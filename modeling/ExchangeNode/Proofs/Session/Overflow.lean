import ExchangeNode.Proofs.Session.Tally

/-!
# The largest number of failures

A loop keeps the number of its failures in 32 bits. A heartbeat that fails or is refused is counted
up to the largest number and no further, but the failure of a new registration is added without a
look at that number. `Overflows` is the one event in which this shows: a new registration fails when
the count is full already.

`count_saturates_iff` says that up to the first such event the count is the number of failures in a
row, as far as 32 bits hold it, and that at this event it is not: the loop counts from zero again,
though nothing has gone well. With a longest wait of nothing, failures follow each other without a
pause, and `count_starts_anew` is the run that comes to such an event.
-/

namespace ExchangeNode.Session

/-- The number of failures once a loop has heard the end of its call. -/
def failuresAfter (l : Liveness) (equipped : Bool) (reply : Option Reply) : UInt32 :=
  match l.stage with
  | .beating _ =>
    match judge .keepAlive reply with
    | .error _ => oneMore l.failures
    | .ok order =>
      let heard := if order.ok then 0 else oneMore l.failures
      if order.command = .reconnect && !equipped then heard + 1 else heard
  | .reconnecting _ =>
    match judge .register reply with
    | .ok _ => 0
    | .error _ => l.failures + 1
  | _ => l.failures

/-- Whether a failed registration is added to a count that is full. The answer to a heartbeat may
fill the count and call for a registration that fails at once. -/
def exceeds (l : Liveness) (equipped : Bool) (reply : Option Reply) : Bool :=
  match l.stage with
  | .beating _ =>
    match judge .keepAlive reply with
    | .error _ => false
    | .ok order =>
      order.command = .reconnect && !equipped && !order.ok && oneMore l.failures = 4294967295
  | .reconnecting _ =>
    match judge .register reply with
    | .ok _ => false
    | .error _ => l.failures = 4294967295
  | _ => false

/-- The count of a loop is exceeded by what the loop hears. -/
def Overflows (s : Session) (loop : Nat) (event : Event) : Prop :=
  ∃ l reply, s.loopHears? event = some (loop, l, reply) ∧ exceeds l s.isEquipped reply

instance (s : Session) (loop : Nat) (event : Event) : Decidable (s.Overflows loop event) :=
  decidable_of_iff (∃ heard ∈ s.loopHears? event, heard.1 = loop ∧
      exceeds heard.2.1 s.isEquipped heard.2.2) <| by
    constructor
    · rintro ⟨⟨_, l, reply⟩, hears, rfl, exceeded⟩
      exact ⟨l, reply, hears, exceeded⟩
    · rintro ⟨l, reply, hears, exceeded⟩
      exact ⟨(loop, l, reply), hears, rfl, exceeded⟩

variable {s : Session} {event : Event} {loop : Nat} {l m : Liveness} {t : Tally}
  {failures : UInt32} {reply : Option Reply} {stage : Stage} {calls : Nat}

/-- As many failures as 32 bits hold. -/
def Saturates (failures : UInt32) (misses : Nat) : Prop :=
  failures.toNat = min misses (UInt32.size - 1)

/-! ### Counting -/

theorem saturates_oneMore {misses : Nat} (saturates : Saturates failures misses) :
    Saturates (oneMore failures) (misses + 1) := by
  rw [Saturates, toNat_oneMore, saturates]
  omega

theorem toNat_add_one (notFull : failures ≠ 4294967295) :
    (failures + 1).toNat = failures.toNat + 1 := by
  have bound := failures.toNat_lt
  have different : failures.toNat ≠ 4294967295 := fun same => notFull (UInt32.toNat_inj.mp same)
  have one : (1 : UInt32).toNat = 1 := rfl
  rw [UInt32.toNat_add, one]
  omega

/-- An addition keeps the count right exactly when the count is not full. -/
theorem saturates_add_one_iff {misses : Nat} (saturates : Saturates failures misses) :
    Saturates (failures + 1) (misses + 1) ↔ failures ≠ 4294967295 := by
  constructor
  · rintro again rfl
    have none : (4294967295 + 1 : UInt32).toNat = 0 := rfl
    rw [Saturates, none] at again
    simp only [UInt32.size] at again
    omega
  · intro notFull
    have below : failures.toNat + 1 < UInt32.size := by
      have bound := (failures + 1).toNat_lt
      rwa [toNat_add_one notFull] at bound
    rw [Saturates, toNat_add_one notFull]
    rw [Saturates] at saturates
    simp only [UInt32.size] at *
    omega

theorem misses_of_full {misses : Nat} (saturates : Saturates 4294967295 misses) :
    UInt32.size ≤ misses + 1 := by
  have full : (4294967295 : UInt32).toNat = 4294967295 := rfl
  rw [Saturates, full] at saturates
  simp only [UInt32.size] at *
  omega

/-- What a loop counts once it has heard the end of its call is right exactly when the count was
not exceeded. -/
theorem saturates_after_iff (saturates : Saturates m.failures t.misses) (equipped : Bool)
    (reply : Option Reply) :
    Saturates (failuresAfter m equipped reply) (t.after equipped reply m.stage).misses ↔
      exceeds m equipped reply = false := by
  have more := saturates_oneMore saturates
  have none : Saturates 0 0 := rfl
  cases stage : m.stage with
  | starting | sleeping | moving =>
    simpa [failuresAfter, exceeds, Tally.after, stage] using saturates
  | beating =>
    cases judged : judge .keepAlive reply with
    | error e => simpa [failuresAfter, exceeds, Tally.after, stage, judged, Tally.failed] using more
    | ok order =>
      simp only [failuresAfter, exceeds, Tally.after, stage, judged]
      by_cases recalls : order.command = .reconnect
      · cases equipped with
        | true => cases accepted : order.ok <;> simpa [recalls, accepted, Tally.recalled]
        -- The answer itself is counted first, and the failure to register comes on top.
        | false =>
          cases accepted : order.ok with
          | true => simp [recalls, Tally.recalled, Tally.failed, Saturates, UInt32.size]
          | false => simpa [recalls, Tally.recalled, Tally.failed] using saturates_add_one_iff more
      · cases accepted : order.ok <;> simpa [recalls, accepted, Tally.failed, Tally.zero]
  | reconnecting =>
    cases judged : judge .register reply with
    | error e =>
      simpa [failuresAfter, exceeds, Tally.after, stage, judged, Tally.failed] using
        saturates_add_one_iff saturates
    | ok identity => simpa [failuresAfter, exceeds, Tally.after, stage, judged, Tally.zero]

/-- An exceeded count starts anew, though all that was counted has failed. -/
theorem after_of_exceeds (saturates : Saturates m.failures t.misses) {equipped : Bool}
    (exceeded : exceeds m equipped reply) :
    failuresAfter m equipped reply = 0 ∧
      UInt32.size ≤ (t.after equipped reply m.stage).misses := by
  cases stage : m.stage with
  | starting | sleeping | moving => simp [exceeds, stage] at exceeded
  | beating =>
    cases judged : judge .keepAlive reply with
    | error e => simp [exceeds, stage, judged] at exceeded
    | ok order =>
      simp only [exceeds, stage, judged, Bool.and_eq_true, decide_eq_true_eq, Bool.not_eq_true']
        at exceeded
      obtain ⟨⟨⟨recalls, unequipped⟩, refused⟩, full⟩ := exceeded
      have many := misses_of_full (full ▸ saturates_oneMore saturates)
      simp [failuresAfter, stage, judged, recalls, unequipped, refused, full, Tally.after,
        Tally.recalled, Tally.failed, many]
  | reconnecting =>
    cases judged : judge .register reply with
    | ok identity => simp [exceeds, stage, judged] at exceeded
    | error e =>
      simp only [exceeds, stage, judged, decide_eq_true_eq] at exceeded
      have many := misses_of_full (exceeded ▸ saturates)
      simp [failuresAfter, stage, judged, exceeded, Tally.after, Tally.failed, many]

/-! ### One step -/

theorem failures_of_pause (found : (s.pause loop m).loops.get? loop = some l) :
    l.failures = m.failures := by
  obtain ⟨other, -⟩ | ⟨-, same, -⟩ := arises_of_pause found
  · exact absurd rfl other
  · exact same

theorem failures_of_calling {next : Session} {stage : Wait → Stage} {request : Request}
    (found : (next.loopCalls loop m stage request).1.loops.get? loop = some l) :
    l.failures = m.failures := by
  simp only [loopCalls, Table.get?_set, if_true] at found
  cases found
  rfl

theorem failures_of_move {order : HeartbeatReply}
    (found : (s.move loop m order).1.loops.get? loop = some l) : l.failures = m.failures := by
  simp only [move, moved] at found
  split at found
  · split at found
    · split at found
      · exact failures_of_calling found
      · exact failures_of_pause found
    · exact failures_of_pause found
  · split at found
    · exact failures_of_pause found
    · exact failures_of_pause found

theorem failures_of_reconnect (found : (s.reconnect loop m).1.loops.get? loop = some l) :
    l.failures = if s.isEquipped then m.failures else m.failures + 1 := by
  simp only [reconnect] at found
  split at found
  next registration repeats =>
    split at found
    next reached =>
      rw [if_pos (by simp [isEquipped, repeats, reached])]
      exact failures_of_calling found
    next unreached =>
      rw [if_neg (by simp [isEquipped, unreached])]
      exact failures_of_pause found
  next unable =>
    rw [if_neg (by simp [isEquipped, unable])]
    exact failures_of_pause found

/-- The count of a loop after it has heard the end of its call. -/
theorem failures_of_hears (hears : s.loopHears? event = some (loop, m, reply))
    (found : (s.step event).1.loops.get? loop = some l) :
    l.failures = failuresAfter m s.isEquipped reply := by
  obtain ⟨isLoop, wait, waits, -⟩ := loopHears?_spec hears
  rw [step_of_loopHears? hears] at found
  cases stage : m.stage with
  -- A loop at these stages waits for no call.
  | starting | sleeping =>
    rw [stage] at waits
    cases waits
  | beating =>
    simp only [loopAnswered, stage] at found
    simp only [failuresAfter, stage]
    cases judged : judge .keepAlive reply with
    | error e =>
      rw [judged] at found
      exact failures_of_pause found
    | ok order =>
      rw [judged] at found
      simp only [beaten, replied] at found
      cases ordered : order.command with
      | nothing | providerDisconnect =>
        rw [ordered] at found
        simpa [ordered] using failures_of_pause found
      | serverChange =>
        rw [ordered] at found
        simpa [ordered] using failures_of_move found
      | reconnect =>
        rw [ordered] at found
        have counted := failures_of_reconnect found
        cases equipped : s.isEquipped <;> simpa [ordered, equipped] using counted
  | reconnecting =>
    simp only [loopAnswered, stage, reconnected] at found
    simp only [failuresAfter, stage]
    cases judged : judge .register reply with
    | ok identity =>
      rw [judged] at found
      exact failures_of_pause found
    | error e =>
      rw [judged] at found
      exact failures_of_pause found
  | moving =>
    obtain ⟨told, renamed⟩ := get?_loops_revoke isLoop
    simp only [loopAnswered, stage, moved, renamed, Option.getD_some] at found
    obtain ⟨before, wasLoop, -, failures⟩ := same_of_stopCurrent renamed
    cases isLoop.symm.trans wasLoop
    simp only [failuresAfter, stage]
    exact (failures_of_pause found).trans failures.symm

/-- A loop that hears nothing goes on with the count that it has, and a new one begins at zero. -/
theorem failures_of_unheard (unheard : ∀ m reply, s.loopHears? event ≠ some (loop, m, reply))
    (found : (s.step event).1.loops.get? loop = some l) :
    (∃ m, s.loops.get? loop = some m ∧ m.failures = l.failures) ∨
      (loop = s.nextLoop ∧ l.failures = 0) := by
  cases arises_course (s.step_course event) found with
  | stays same =>
    obtain ⟨m, before, -, failures⟩ := same
    exact .inl ⟨m, before, failures⟩
  | begins new _ fresh => exact .inr ⟨new, fresh⟩
  | wakes before failures => exact .inl ⟨_, before, failures⟩
  | hears hears => exact absurd hears (unheard _ _)

/-! ### Runs -/

theorem overflows_iff (hears : s.loopHears? event = some (loop, m, reply)) :
    s.Overflows loop event ↔ exceeds m s.isEquipped reply := by
  constructor
  · rintro ⟨l, heard, hears', exceeded⟩
    rw [hears] at hears'
    cases hears'
    exact exceeded
  · exact fun exceeded => ⟨m, reply, hears, exceeded⟩

/-- A loop has counted the failures in its tally, which stands at nothing until the loop begins. -/
structure Saturated (s : Session) (loop : Nat) (t : Tally) : Prop where
  counted : ∀ l, s.loops.get? loop = some l → Saturates l.failures t.misses
  fresh : s.nextLoop ≤ loop → t = .zero

/-- Only an event that exceeds the count makes a loop that has counted right count wrong. -/
theorem saturates_step_iff (saturated : Saturated s loop t)
    (found : (s.step event).1.loops.get? loop = some l) :
    Saturates l.failures (s.tallied loop event t).misses ↔ ¬ s.Overflows loop event := by
  by_cases hearing : ∃ m reply, s.loopHears? event = some (loop, m, reply)
  · obtain ⟨m, reply, hears⟩ := hearing
    have before := saturated.counted m (loopHears?_spec hears).1
    simp only [Session.tallied, hears, if_true]
    rw [failures_of_hears hears found, overflows_iff hears, saturates_after_iff before,
      Bool.not_eq_true]
  · have unheard : ∀ m reply, s.loopHears? event ≠ some (loop, m, reply) :=
      fun m reply hears => hearing ⟨m, reply, hears⟩
    have inTime : ¬ s.Overflows loop event := by
      rintro ⟨m, reply, hears, -⟩
      exact unheard m reply hears
    rw [tallied_of_unheard unheard, iff_true_right inTime]
    obtain ⟨m, before, same⟩ | ⟨new, zero⟩ := failures_of_unheard unheard found
    · exact same ▸ saturated.counted m before
    · rw [saturated.fresh (Nat.le_of_eq new.symm), zero]
      rfl

theorem fresh_tallied (allotted : Allotted s) (fresh : s.nextLoop ≤ loop → t = .zero)
    (event : Event) : (s.step event).1.nextLoop ≤ loop → s.tallied loop event t = .zero := by
  intro later
  have grows := nextLoop_step s event
  have unheard : ∀ m reply, s.loopHears? event ≠ some (loop, m, reply) := by
    intro m reply hears
    have earlier := allotted loop (alive_of_get? (loopHears?_spec hears).1)
    omega
  rw [tallied_of_unheard unheard]
  exact fresh (Nat.le_trans grows later)

theorem saturated_step (allotted : Allotted s) (saturated : Saturated s loop t)
    (inTime : ¬ s.Overflows loop event) :
    Saturated (s.step event).1 loop (s.tallied loop event t) where
  counted _ found := (saturates_step_iff saturated found).mpr inTime
  fresh := fresh_tallied allotted saturated.fresh event

theorem saturated_run (options : KeepAliveOptions) (world : Surroundings) (loop : Nat)
    (events : List Event)
    (inTime : Throughout (fun s event => ¬ s.Overflows loop event) (fresh options world) events) :
    Saturated ((fresh options world).run events).1 loop
      ((fresh options world).tally loop .zero events) := by
  induction events using List.reverseRecOn with
  | nil => exact ⟨nofun, fun _ => rfl⟩
  | append_singleton past event ih =>
    obtain ⟨before, last⟩ := (throughout_append _ past [event]).mp inTime
    have allotted : Allotted ((fresh options world).run past).1 :=
      run_invariant Allotted (fun _ event holds => allotted_step holds event)
        (allotted_fresh options world) past
    rw [run_concat, tally_concat]
    exact saturated_step allotted (ih before) last.1

theorem misses_of_overflows (saturated : Saturated s loop t) (overflows : s.Overflows loop event)
    (found : (s.step event).1.loops.get? loop = some l) :
    l.failures = 0 ∧ UInt32.size ≤ (s.tallied loop event t).misses := by
  obtain ⟨m, reply, hears, exceeded⟩ := overflows
  have before := saturated.counted m (loopHears?_spec hears).1
  simp only [Session.tallied, hears, if_true]
  rw [failures_of_hears hears found]
  exact after_of_exceeds before exceeded

/-- As long as no failure to register has been added to a full count, the count of a loop is the
number of its failures in a row, or the largest number if that is less. The next event keeps it so
exactly when it does not exceed the count either; otherwise the loop starts again from zero, after
more failures in a row than 32 bits hold. -/
theorem count_saturates_iff (options : KeepAliveOptions) (world : Surroundings) (loop : Nat)
    (before : List Event) (event : Event)
    (inTime : Throughout (fun s event => ¬ s.Overflows loop event) (fresh options world) before)
    (l : Liveness)
    (found : ((fresh options world).run (before ++ [event])).1.loops.get? loop = some l) :
    let s := ((fresh options world).run before).1
    let t := (fresh options world).tally loop .zero (before ++ [event])
    (Saturates l.failures t.misses ↔ ¬ s.Overflows loop event) ∧
      (s.Overflows loop event → l.failures = 0 ∧ UInt32.size ≤ t.misses) := by
  intro s t
  have saturated := saturated_run options world loop before inTime
  rw [run_concat] at found
  rw [show t = s.tallied loop event ((fresh options world).tally loop .zero before) from
    tally_concat _ _ _ _ _]
  exact ⟨saturates_step_iff saturated found,
    fun overflows => misses_of_overflows saturated overflows found⟩

/-- The directory refuses a heartbeat and calls for a new registration. -/
def refusedRecall : Reply := .ok (.heartbeat ⟨false, .reconnect, ""⟩)

def brokenOff : Reply := .error .connectionClosed

def recalledOnce : List Event := firstHeartbeat ++ [.answer 1 refusedRecall]

/-- A refused heartbeat and the failed registration that it called for are two failures. -/
theorem count_of_broken_off_recall :
    Throughout (fun s event => ¬ s.Overflows 0 event) (fresh steady stillWorld) recalledOnce ∧
      ∃ l, ((fresh steady stillWorld).run (recalledOnce ++ [.answer 2 brokenOff])).1.loops.get? 0 =
          some l ∧ l.failures = 2 ∧ Saturates l.failures 2 := by
  have inTime : Throughout (fun s event => ¬ s.Overflows 0 event) (fresh steady stillWorld)
      recalledOnce := by decide
  have last : ¬ ((fresh steady stillWorld).run recalledOnce).1.Overflows 0
      (.answer 2 brokenOff) := by decide
  have found : ((fresh steady stillWorld).run
      (recalledOnce ++ [.answer 2 brokenOff])).1.loops.get? 0 =
        some ⟨false, 2, .sleeping 25000⟩ := by decide
  have tally : (fresh steady stillWorld).tally 0 .zero
      (recalledOnce ++ [.answer 2 brokenOff]) = ⟨2, 1, 1⟩ := by decide
  obtain ⟨counts, -⟩ := count_saturates_iff steady stillWorld 0 recalledOnce
    (.answer 2 brokenOff) inTime ⟨false, 2, .sleeping 25000⟩ found
  rw [tally] at counts
  exact ⟨inTime, _, found, rfl, counts.mpr last⟩

/-! ### Failures without a pause -/

/-- The longest wait is none. -/
def impatient : KeepAliveOptions := { steady with longestBackoffSeconds := 0 }

/-- A heartbeat is refused, and the directory breaks off the registration that it has called for. -/
def failingCalls (call : Nat) : List Event :=
  [.answer call refusedRecall, .answer (call + 1) brokenOff]

/-- A round that fails twice, after which the next heartbeat goes out. -/
def failingRound (call : Nat) : List Event := failingCalls call ++ [.wake 0]

/-- The first heartbeat, and rounds that fail. -/
def failingRounds : Nat → List Event
  | 0 => firstHeartbeat
  | n + 1 => failingRounds n ++ failingRound (2 * n + 1)

def assigned : Identity := ⟨7, 1007, "127.0.0.1:10000", 5⟩

/-- An impatient node is registered, and its first loop goes on. No time passes. -/
structure Strained (s : Session) (failures : UInt32) (stage : Stage) (calls : Nat) : Prop where
  regular : Regular s
  found : s.loops.get? 0 = some ⟨false, failures, stage⟩
  made : s.nextCall = calls
  repeats : s.registration = some (.ofNode "sensor-1" [10] none)
  reached : s.directory = some "127.0.0.1:9000"
  live : s.live? = some assigned
  backoff : s.backoff = (fresh impatient stillWorld).backoff
  now : s.world.now = 5000

theorem strained_first :
    Strained ((fresh impatient stillWorld).run firstHeartbeat).1 0 (.beating ⟨1, 15000⟩) 2 where
  regular := regular_run (regular_fresh impatient stillWorld) firstHeartbeat
  found := by decide
  made := by decide
  repeats := by decide
  reached := by decide
  live := by decide
  backoff := by decide
  now := by decide

theorem newWait_of_strained (strained : Strained s failures stage calls) :
    s.newWait = ⟨calls, 15000⟩ := by
  rw [newWait, strained.made, strained.now]
  rfl

theorem hears_of_strained (strained : Strained s failures stage calls) {wait : Wait}
    (waits : stage.wait? = some wait) (reply : Reply) :
    s.loopHears? (.answer wait.call reply) = some (0, ⟨false, failures, stage⟩, some reply) :=
  loopHears?_answer strained.regular.numbered strained.found waits reply

theorem strained_of_refused {wait : Wait} (strained : Strained s failures (.beating wait) calls) :
    Strained (s.step (.answer wait.call refusedRecall)).1 (oneMore failures)
      (.reconnecting ⟨calls, 15000⟩) (calls + 1) := by
  have hears := hears_of_strained strained rfl refusedRecall
  have turn := step_of_reconnect hears rfl rfl rfl strained.repeats (by rw [strained.reached]; rfl)
  have regular := regular_step strained.regular (.answer wait.call refusedRecall)
  have waits := newWait_of_strained strained
  rw [turn] at regular ⊢
  refine ⟨regular, ?_, congrArg (· + 1) strained.made, strained.repeats, strained.reached,
    strained.live, strained.backoff, strained.now⟩
  simp only [newWait] at waits
  simp [loopCalls, newWait, waits]

theorem strained_of_brokenOff {wait : Wait}
    (strained : Strained s failures (.reconnecting wait) calls) :
    Strained (s.step (.answer wait.call brokenOff)).1 (failures + 1)
      (.sleeping (5000 + waitOf impatient assigned (failures + 1).toNat)) calls := by
  have hears := hears_of_strained strained rfl brokenOff
  have regular := regular_step strained.regular (.answer wait.call brokenOff)
  have turn := step_of_loopHears? hears
  have delay : ((fresh impatient stillWorld).backoff.delay (interval assigned) (failures + 1)
      s.world.random).millis = waitOf impatient assigned (failures + 1).toNat :=
    millis_delay_eq (by decide) stillWorld (failures + 1) s.world.random
  have live := strained.live
  rw [turn] at regular ⊢
  refine ⟨regular, ?_, strained.made, strained.repeats, strained.reached, live, strained.backoff,
    strained.now⟩
  simp only [live?] at live
  simp [loopAnswered, reconnected, judge, brokenOff, pause, live?, live, strained.backoff, delay,
    strained.now]

theorem strained_of_woken (strained : Strained s failures (.sleeping 5000) calls) :
    Strained (s.step (.wake 0)).1 failures (.beating ⟨calls, 15000⟩) (calls + 1) := by
  have regular := regular_step strained.regular (.wake 0)
  have turn : s.step (.wake 0) = s.beat 0 ⟨false, failures, .sleeping 5000⟩ := by
    simp only [step, Session.wake, strained.found, strained.now, Nat.le_refl, if_true]
  have ready : (s.live?.isSome && s.directory.isSome) = true := by
    rw [strained.live, strained.reached]
    rfl
  have waits := newWait_of_strained strained
  rw [turn] at regular ⊢
  simp only [beat, if_pos ready] at regular ⊢
  refine ⟨regular, ?_, congrArg (· + 1) strained.made, strained.repeats, strained.reached,
    strained.live, strained.backoff, strained.now⟩
  simp only [newWait] at waits
  simp [loopCalls, newWait, waits]

theorem tallied_of_refused {wait : Wait} (strained : Strained s failures (.beating wait) calls) :
    s.tallied 0 (.answer wait.call refusedRecall) t = t.recalled false := by
  have equipped : s.isEquipped = true := by
    rw [isEquipped, strained.repeats, strained.reached]
    rfl
  simp only [tallied, hears_of_strained strained rfl refusedRecall, equipped]
  rfl

theorem tallied_of_brokenOff {wait : Wait}
    (strained : Strained s failures (.reconnecting wait) calls) :
    s.tallied 0 (.answer wait.call brokenOff) t = t.failed := by
  simp only [tallied, hears_of_strained strained rfl brokenOff]
  rfl

theorem waitOf_impatient {failures : Nat} (some : failures ≠ 0) :
    waitOf impatient assigned failures = 0 := by
  simp [waitOf, Backoff.waitAfter, some, impatient]

theorem oneMore_ofNat {n : Nat} (few : n + 1 < UInt32.size) :
    oneMore (.ofNat n) = .ofNat (n + 1) := by
  rw [← UInt32.toNat_inj, toNat_oneMore, UInt32.toNat_ofNat_of_lt' few,
    UInt32.toNat_ofNat_of_lt' (Nat.lt_of_succ_lt few)]
  omega

theorem ofNat_add_one (n : Nat) : (.ofNat n + 1 : UInt32) = .ofNat (n + 1) :=
  (UInt32.ofNat_add n 1).symm

theorem tally_append (s : Session) (loop : Nat) (t : Tally) (first more : List Event) :
    s.tally loop t (first ++ more) = (s.run first).1.tally loop (s.tally loop t first) more := by
  induction first generalizing s t with
  | nil => rfl
  | cons event rest ih => exact ih (s.step event).1 (s.tallied loop event t)

/-- So many rounds have failed, each of them twice. -/
structure Failing (s : Session) (t : Tally) (rounds : Nat) : Prop where
  strained : Strained s (.ofNat (2 * rounds)) (.beating ⟨2 * rounds + 1, 15000⟩) (2 * rounds + 2)
  tally : t = ⟨2 * rounds, rounds, rounds⟩

section

variable {rounds : Nat} (failing : Failing s t rounds) (few : 2 * rounds + 1 < UInt32.size)
include failing few

theorem strained_of_heard :
    Strained (s.step (.answer (2 * rounds + 1) refusedRecall)).1 (.ofNat (2 * rounds + 1))
      (.reconnecting ⟨2 * rounds + 2, 15000⟩) (2 * rounds + 3) :=
  oneMore_ofNat few ▸ strained_of_refused failing.strained

/-- The round fails for the second time. -/
theorem strained_of_failed :
    Strained (s.run (failingCalls (2 * rounds + 1))).1 (.ofNat (2 * rounds + 2))
      (.sleeping (5000 + waitOf impatient assigned (UInt32.ofNat (2 * rounds + 2)).toNat))
      (2 * rounds + 3) :=
  ofNat_add_one (2 * rounds + 1) ▸ strained_of_brokenOff (strained_of_heard failing few)

theorem tally_failingCalls :
    s.tally 0 t (failingCalls (2 * rounds + 1)) = ⟨2 * rounds + 2, rounds + 1, rounds + 1⟩ := by
  have counted : s.tally 0 t (failingCalls (2 * rounds + 1)) = (t.recalled false).failed := by
    rw [← tallied_of_refused failing.strained,
      ← tallied_of_brokenOff (strained_of_heard failing few)]
    rfl
  rw [counted, failing.tally]
  rfl

end

theorem failing_round {rounds : Nat} (failing : Failing s t rounds)
    (few : 2 * rounds + 2 < UInt32.size) :
    Failing (s.run (failingRound (2 * rounds + 1))).1
      (s.tally 0 t (failingRound (2 * rounds + 1))) (rounds + 1) := by
  have noWait : waitOf impatient assigned (UInt32.ofNat (2 * rounds + 2)).toNat = 0 := by
    rw [UInt32.toNat_ofNat_of_lt' few]
    exact waitOf_impatient (Nat.succ_ne_zero _)
  have asleep := strained_of_failed failing (Nat.lt_of_succ_lt few)
  rw [noWait] at asleep
  have counted := tally_failingCalls failing (Nat.lt_of_succ_lt few)
  rw [failingRound, run_append, tally_append, counted]
  exact ⟨strained_of_woken asleep, rfl⟩

theorem failing_rounds (rounds : Nat) (few : 2 * rounds < UInt32.size) :
    Failing ((fresh impatient stillWorld).run (failingRounds rounds)).1
      ((fresh impatient stillWorld).tally 0 .zero (failingRounds rounds)) rounds := by
  induction rounds with
  | zero => exact ⟨strained_first, by decide⟩
  | succ n ih =>
    rw [failingRounds, run_append, tally_append]
    exact failing_round (ih (by omega)) few

/-- A round that is short of one failure fills the count with its heartbeat, and empties it with its
registration. -/
theorem starts_anew_of_full {rounds call : Nat} (begins : call = 2 * rounds + 1)
    (full : call = 4294967295) :
    let s := ((fresh impatient stillWorld).run (failingRounds rounds)).1
    let after := ((fresh impatient stillWorld).run (failingRounds rounds ++ failingCalls call)).1
    let t := (fresh impatient stillWorld).tally 0 .zero (failingRounds rounds ++ failingCalls call)
    (s.step (.answer call refusedRecall)).1.loops.get? 0 =
        some ⟨false, 4294967295, .reconnecting ⟨4294967296, 15000⟩⟩ ∧
      after.loops.get? 0 = some ⟨false, 0, .sleeping 10000⟩ ∧
      t.misses = 4294967296 ∧ t.rounds = 2147483648 ∧
      waitOf impatient assigned t.misses = 0 := by
  intro s after t
  have few : 2 * rounds + 1 < UInt32.size := by
    rw [UInt32.size]
    omega
  have failing := failing_rounds rounds (Nat.lt_of_succ_lt few)
  have heard := (strained_of_heard failing few).found
  have failed := (strained_of_failed failing few).found
  have counted := tally_failingCalls failing few
  rw [← begins] at heard failed counted
  have next : 2 * rounds + 2 = 4294967296 := by omega
  have half : rounds + 1 = 2147483648 := by omega
  rw [next] at heard failed counted
  have state : after = (s.run (failingCalls call)).1 := by
    simp only [after, s, run_append]
  have tally : t = ⟨4294967296, rounds + 1, rounds + 1⟩ := (tally_append _ _ _ _ _).trans counted
  rw [state, tally]
  refine ⟨?_, failed, rfl, half, waitOf_impatient (Nat.succ_ne_zero _)⟩
  rw [heard, full]
  rfl

/-- After `2 ^ 32 - 1` failures in a row the count is full, and one more empties it. The loop waits
for the plain interval then, where any failure that is counted would leave it no wait at all. -/
theorem count_starts_anew :
    let rounds := failingRounds 2147483647
    let s := ((fresh impatient stillWorld).run rounds).1
    let after := ((fresh impatient stillWorld).run (rounds ++ failingCalls 4294967295)).1
    let t := (fresh impatient stillWorld).tally 0 .zero (rounds ++ failingCalls 4294967295)
    (s.step (.answer 4294967295 refusedRecall)).1.loops.get? 0 =
        some ⟨false, 4294967295, .reconnecting ⟨4294967296, 15000⟩⟩ ∧
      after.loops.get? 0 = some ⟨false, 0, .sleeping 10000⟩ ∧
      t.misses = 4294967296 ∧ t.rounds = 2147483648 ∧
      waitOf impatient assigned t.misses = 0 :=
  starts_anew_of_full rfl rfl

end ExchangeNode.Session
