import ExchangeNode.Proofs.Backoff
import ExchangeNode.Proofs.Session.Pacing
import ExchangeNode.Proofs.Session.Refusal

/-!
# Failures in a row

A loop waits longer after each round that has failed: its heartbeat was not answered or was refused,
or the directory called for a new registration and that failed. The loop counts failures where it
hears of them. An accepted heartbeat starts the count anew even if it calls for a new registration,
so however many of those fail in a row, only the last one counts.

`wait_after_failures` says how long the loop waits by what it counts, and that this is the number of
failed rounds as long as no new registration was called for among them.
-/

namespace ExchangeNode.Session

/-- What has gone wrong in the rounds of a loop. -/
structure Tally where
  /-- Failures heard of since a heartbeat was accepted or a new registration granted. -/
  misses : Nat
  /-- Rounds that have failed since the last one that has not. -/
  rounds : Nat
  /-- New registrations that were called for since then. -/
  renewals : Nat
  deriving DecidableEq, Repr

namespace Tally

def zero : Tally := ⟨0, 0, 0⟩

/-- The round has failed. -/
def failed (t : Tally) : Tally := { t with misses := t.misses + 1, rounds := t.rounds + 1 }

/-- A heartbeat was answered with the call for a new registration, and the round goes on. -/
def recalled (t : Tally) (ok : Bool) : Tally :=
  { t with misses := if ok then 0 else t.misses + 1, renewals := t.renewals + 1 }

/-- The tally once a loop has heard the end of its call. A new registration fails at once where the
session does not have what it takes. -/
def after (t : Tally) (equipped : Bool) (reply : Option Reply) : Stage → Tally
  | .beating _ =>
    match judge .keepAlive reply with
    | .error _ => t.failed
    | .ok order =>
      if order.command = .reconnect then
        if equipped then t.recalled order.ok else (t.recalled order.ok).failed
      else if order.ok then zero else t.failed
  | .reconnecting _ =>
    match judge .register reply with
    | .ok _ => zero
    | .error _ => t.failed
  | _ => t

end Tally

/-- Whether the session has what a new registration takes. -/
def isEquipped (s : Session) : Bool := s.registration.isSome && s.directory.isSome

/-- The tally of a loop after an event. -/
def tallied (s : Session) (loop : Nat) (event : Event) (t : Tally) : Tally :=
  match s.loopHears? event with
  | some (other, l, reply) => if other = loop then t.after s.isEquipped reply l.stage else t
  | none => t

/-- The tally of a loop after a run. -/
def tally (s : Session) (loop : Nat) (t : Tally) : List Event → Tally
  | [] => t
  | event :: rest => (s.step event).1.tally loop (s.tallied loop event t) rest

/-- A number of failures agrees with a tally as far as it can: it is kept in 32 bits. -/
structure Counts (failures : UInt32) (t : Tally) : Prop where
  misses : t.misses < UInt32.size → failures.toNat = t.misses
  rounds : t.renewals = 0 → failures.toNat = min t.rounds (UInt32.size - 1)

variable {s : Session} {event : Event} {loop : Nat} {l m : Liveness} {t : Tally}
  {failures : UInt32} {reply : Option Reply}

/-! ### Counting -/

theorem toNat_oneMore (failures : UInt32) :
    (oneMore failures).toNat = min (failures.toNat + 1) (UInt32.size - 1) := by
  have bound := failures.toNat_lt
  simp only [oneMore, UInt32.size]
  split
  next full =>
    subst full
    rfl
  next notFull =>
    have different : failures.toNat ≠ 4294967295 := fun same => notFull (UInt32.toNat_inj.mp same)
    rw [UInt32.toNat_add]
    have one : (1 : UInt32).toNat = 1 := rfl
    omega

theorem counts_zero : Counts 0 .zero := ⟨fun _ => rfl, fun _ => rfl⟩

theorem Counts.failed (counts : Counts failures t) : Counts (oneMore failures) t.failed := by
  constructor
  · intro small
    have before := counts.misses (by simp only [Tally.failed] at small; omega)
    rw [toNat_oneMore, before]
    simp only [Tally.failed] at small ⊢
    omega
  · intro none
    rw [toNat_oneMore, counts.rounds none]
    simp only [Tally.failed]
    omega

/-- The failure of a new registration is added without a look at the largest number. -/
theorem Counts.failed_of_renewals (counts : Counts failures t) (renewing : t.renewals ≠ 0) :
    Counts (failures + 1) t.failed := by
  constructor
  · intro small
    simp only [Tally.failed] at small ⊢
    have before := counts.misses (by omega)
    have one : (1 : UInt32).toNat = 1 := rfl
    simp only [UInt32.size] at small
    rw [UInt32.toNat_add, before, one]
    omega
  · exact fun none => absurd none renewing

theorem Counts.recalled (counts : Counts failures t) (ok : Bool) :
    Counts (if ok then 0 else oneMore failures) (t.recalled ok) := by
  constructor
  · intro small
    cases ok with
    | true => rfl
    | false => exact counts.failed.misses small
  · exact fun none => absurd none (Nat.succ_ne_zero _)

/-- An answer to a heartbeat that calls for no new registration ends the round. -/
theorem Counts.answered (counts : Counts failures t) (ok : Bool) :
    Counts (if ok then 0 else oneMore failures) (if ok then .zero else t.failed) := by
  cases ok with
  | true => exact counts_zero
  | false => exact counts.failed

/-! ### One step -/

/-- A loop agrees with its tally. While it waits for a new registration, that is in the tally. -/
structure Agrees (l : Liveness) (t : Tally) : Prop where
  counts : Counts l.failures t
  renewing : ∀ wait, l.stage = .reconnecting wait → t.renewals ≠ 0

theorem agrees_of_pause {s : Session} (found : (s.pause loop m).loops.get? loop = some l)
    (counts : Counts m.failures t) : Agrees l t := by
  obtain ⟨other, -⟩ | ⟨-, failures, ⟨wake, asleep⟩, -⟩ := arises_of_pause found
  · exact absurd rfl other
  · exact ⟨failures ▸ counts, by simp [asleep]⟩

theorem agrees_of_move {order : HeartbeatReply}
    (found : (s.move loop m order).1.loops.get? loop = some l) (counts : Counts m.failures t) :
    Agrees l t := by
  simp only [move, moved] at found
  split at found
  · split at found
    · split at found
      · simp only [loopCalls, Table.get?_set, if_true] at found
        cases found
        exact ⟨counts, by simp⟩
      · exact agrees_of_pause found counts
    · exact agrees_of_pause found counts
  · split at found
    · exact agrees_of_pause found counts
    · exact agrees_of_pause found counts

theorem agrees_of_reconnect (found : (s.reconnect loop m).1.loops.get? loop = some l)
    (counts : Counts m.failures t) (renewing : t.renewals ≠ 0) :
    Agrees l (if s.isEquipped then t else t.failed) := by
  simp only [reconnect] at found
  split at found
  next registration repeats =>
    split at found
    next reached =>
      simp only [loopCalls, Table.get?_set, if_true] at found
      cases found
      -- The call has only been sent: the tally has the round still open.
      rw [if_pos (by simp [isEquipped, repeats, reached])]
      exact ⟨counts, fun _ _ => renewing⟩
    next unreached =>
      rw [if_neg (by simp [isEquipped, unreached])]
      exact agrees_of_pause found (counts.failed_of_renewals renewing)
  next unable =>
    rw [if_neg (by simp [isEquipped, unable])]
    exact agrees_of_pause found (counts.failed_of_renewals renewing)

theorem agrees_of_replied {order : HeartbeatReply} (counts : Counts m.failures t)
    (found : (s.replied loop m order).1.loops.get? loop = some l) :
    Agrees l (if order.command = .reconnect then
        if s.isEquipped then t.recalled order.ok else (t.recalled order.ok).failed
      else if order.ok then .zero else t.failed) := by
  have ends := counts.answered order.ok
  simp only [replied] at found
  cases ordered : order.command with
  | nothing =>
    rw [ordered] at found
    exact agrees_of_pause found ends
  | reconnect =>
    rw [ordered] at found
    exact agrees_of_reconnect found (counts.recalled order.ok) (Nat.succ_ne_zero _)
  | serverChange =>
    rw [ordered] at found
    exact agrees_of_move found ends
  | providerDisconnect =>
    rw [ordered] at found
    exact agrees_of_pause found ends

/-- What a loop counts agrees with its tally after it has heard the end of its call. -/
theorem agrees_of_hears (hears : s.loopHears? event = some (loop, m, reply)) (agrees : Agrees m t)
    (found : (s.step event).1.loops.get? loop = some l) :
    Agrees l (t.after s.isEquipped reply m.stage) := by
  obtain ⟨isLoop, wait, waits, -⟩ := loopHears?_spec hears
  rw [step_of_loopHears? hears] at found
  cases stage : m.stage with
  -- A loop at these stages waits for no call.
  | starting | sleeping =>
    rw [stage] at waits
    cases waits
  | beating wait =>
    simp only [loopAnswered, stage] at found
    simp only [Tally.after]
    cases judged : judge .keepAlive reply with
    | error e =>
      rw [judged] at found
      exact agrees_of_pause found agrees.counts.failed
    | ok order =>
      rw [judged] at found
      exact agrees_of_replied agrees.counts found
  -- The answer to the heartbeat has been counted, and the failure to register comes on top.
  | reconnecting wait =>
    simp only [loopAnswered, stage, reconnected] at found
    have renewing := agrees.renewing wait stage
    simp only [Tally.after]
    cases judged : judge .register reply with
    | ok identity =>
      rw [judged] at found
      exact agrees_of_pause found counts_zero
    | error e =>
      rw [judged] at found
      exact agrees_of_pause found (agrees.counts.failed_of_renewals renewing)
  -- The round has ended with the order already.
  | moving wait order =>
    obtain ⟨told, renamed⟩ := get?_loops_revoke isLoop
    simp only [loopAnswered, stage, moved, renamed, Option.getD_some] at found
    obtain ⟨before, wasLoop, -, failures⟩ := same_of_stopCurrent renamed
    cases isLoop.symm.trans wasLoop
    exact agrees_of_pause found (failures ▸ agrees.counts)

/-! ### Runs -/

/-- A loop agrees with its tally, which stands at nothing until the loop begins. -/
structure Tallied (s : Session) (loop : Nat) (t : Tally) : Prop where
  agrees : ∀ l, s.loops.get? loop = some l → Agrees l t
  fresh : s.nextLoop ≤ loop → t = .zero

theorem nextLoop_step (s : Session) (event : Event) : s.nextLoop ≤ (s.step event).1.nextLoop := by
  have course := s.step_course event
  obtain ⟨same, -⟩ | ⟨job, address, returned⟩ := slot_course course
  · exact Nat.le_of_eq same.symm
  · rw [(slot_of_returned course returned).1]
    exact Nat.le_succ _

theorem tallied_of_unheard (unheard : ∀ m reply, s.loopHears? event ≠ some (loop, m, reply)) :
    s.tallied loop event t = t := by
  simp only [Session.tallied]
  split
  next other m reply hears =>
    have different : other ≠ loop := by
      rintro rfl
      exact unheard m reply hears
    rw [if_neg different]
  next => rfl

theorem tallied_step (allotted : Allotted s) (tallied : Tallied s loop t) (event : Event) :
    Tallied (s.step event).1 loop (s.tallied loop event t) := by
  have grows := nextLoop_step s event
  by_cases hearing : ∃ m reply, s.loopHears? event = some (loop, m, reply)
  · obtain ⟨m, reply, hears⟩ := hearing
    have isLoop := (loopHears?_spec hears).1
    have earlier := allotted loop (alive_of_get? isLoop)
    simp only [Session.tallied, hears, if_true]
    constructor
    · exact fun l found => agrees_of_hears hears (tallied.agrees m isLoop) found
    · intro later
      omega
  -- A loop that hears nothing goes on counting from where it is.
  · have unheard : ∀ m reply, s.loopHears? event ≠ some (loop, m, reply) :=
      fun m reply hears => hearing ⟨m, reply, hears⟩
    rw [tallied_of_unheard unheard]
    constructor
    · intro l found
      cases arises_course (s.step_course event) found with
      | stays same =>
        obtain ⟨m, before, stage, failures⟩ := same
        have agrees := tallied.agrees m before
        exact ⟨failures ▸ agrees.counts, fun wait renewing =>
          agrees.renewing wait (stage.trans renewing)⟩
      -- Its number is new, so nothing has been tallied for it.
      | begins new starting fresh =>
        rw [tallied.fresh (Nat.le_of_eq new.symm)]
        exact ⟨fresh ▸ counts_zero, by simp [starting]⟩
      | wakes before failures awake =>
        have agrees := tallied.agrees _ before
        exact ⟨failures ▸ agrees.counts, fun wait renewing => absurd renewing (awake wait)⟩
      | hears hears => exact absurd hears (unheard _ _)
    · exact fun later => tallied.fresh (Nat.le_trans grows later)

theorem tally_concat (s : Session) (loop : Nat) (t : Tally) (events : List Event) (event : Event) :
    s.tally loop t (events ++ [event]) =
      (s.run events).1.tallied loop event (s.tally loop t events) := by
  induction events generalizing s t with
  | nil => rfl
  | cons first rest ih => exact ih (s.step first).1 (s.tallied loop first t)

theorem tallied_run (options : KeepAliveOptions) (world : Surroundings) (loop : Nat)
    (events : List Event) :
    Tallied ((fresh options world).run events).1 loop
      ((fresh options world).tally loop .zero events) := by
  induction events using List.reverseRecOn with
  | nil =>
    constructor
    · intro l found
      cases found
    · exact fun _ => rfl
  | append_singleton past event ih =>
    have allotted : Allotted ((fresh options world).run past).1 :=
      run_invariant Allotted (fun _ event holds => allotted_step holds event)
        (allotted_fresh options world) past
    rw [run_concat, tally_concat]
    exact tallied_step allotted ih event

/-! ### The wait -/

/-- How long a loop waits after some failures, in milliseconds of 64 bits. -/
def waitOf (options : KeepAliveOptions) (identity : Identity) (failures : Nat) : Nat :=
  min (Backoff.waitAfter ((max 1 identity.heartbeatSeconds.toInt).toNat * 1000)
    (options.longestBackoffSeconds.toNat * 1000) failures) Backoff.largest

section

variable {options : KeepAliveOptions} {identity : Identity}

theorem millis_interval (identity : Identity) :
    (interval identity).millis = (max 1 identity.heartbeatSeconds.toInt).toNat * 1000 :=
  Backoff.millis_ofSeconds _

/-- The directory gives the interval in 32 bits. -/
theorem millis_interval_le (identity : Identity) :
    (interval identity).millis ≤ Backoff.largest := by
  have bound := identity.heartbeatSeconds.toInt_lt
  have few : (max 1 identity.heartbeatSeconds.toInt).toNat ≤ 2147483648 := by omega
  calc (interval identity).millis = (max 1 identity.heartbeatSeconds.toInt).toNat * 1000 :=
        millis_interval identity
    _ ≤ 2147483648 * 1000 := Nat.mul_le_mul_right _ few
    _ ≤ Backoff.largest := by decide

theorem millis_longest (options : KeepAliveOptions) (world : Surroundings) :
    (fresh options world).backoff.longest.millis = options.longestBackoffSeconds.toNat * 1000 :=
  Backoff.millis_ofSeconds _

theorem millis_delay_eq (still : options.jitter ≤ 0.0) (world : Surroundings)
    (failures : UInt32) (random : Float) :
    ((fresh options world).backoff.delay (interval identity) failures random).millis =
      waitOf options identity failures.toNat := by
  have quiet : (fresh options world).backoff.jitter ≤ 0.0 := still
  rw [Backoff.millis_delay quiet (millis_interval_le identity), millis_interval, millis_longest,
    waitOf]

/-- Beyond 32 bits the number of failures makes no difference. -/
theorem waitOf_min (failures : Nat) :
    waitOf options identity (min failures (UInt32.size - 1)) =
      waitOf options identity failures := by
  rcases Nat.le_total failures (UInt32.size - 1) with few | many
  · rw [Nat.min_eq_left few]
  · have positive : 0 < (max 1 identity.heartbeatSeconds.toInt).toNat * 1000 := by omega
    have beyond : 64 ≤ UInt32.size - 1 := by decide
    rw [Nat.min_eq_right many, waitOf, waitOf, Backoff.waitAfter_of_many positive beyond,
      Backoff.waitAfter_of_many positive (Nat.le_trans beyond many)]

end

theorem waitOf_of_counts (options : KeepAliveOptions) (identity : Identity)
    (counts : Counts failures t) :
    (t.renewals = 0 → waitOf options identity failures.toNat = waitOf options identity t.rounds) ∧
      (t.misses < UInt32.size →
        waitOf options identity failures.toNat = waitOf options identity t.misses) := by
  constructor
  · intro none
    rw [counts.rounds none, waitOf_min]
  · intro small
    rw [counts.misses small]

theorem wake_of_paced {options : KeepAliveOptions} {world : Surroundings}
    (still : options.jitter ≤ 0.0) (backoff : s.backoff = (fresh options world).backoff)
    (paced : Paced s l) {wake : Nat} (asleep : l.stage = .sleeping wake) :
    ∃ identity, s.live? = some identity ∧
      wake = s.world.now + waitOf options identity l.failures.toNat := by
  obtain ⟨identity, live, planned⟩ := paced wake asleep
  rw [backoff, millis_delay_eq still] at planned
  exact ⟨identity, live, planned⟩

/-- Without jitter, a loop that goes to sleep after a step of a run waits as long as the failures
that it has counted come to; these are the failed rounds in a row if no new registration was called
for among them. Its next heartbeat goes out at the very end of that wait. -/
theorem wait_after_failures (options : KeepAliveOptions) (world : Surroundings)
    (still : options.jitter ≤ 0.0) (before : List Event) (event : Event) :
    let s := ((fresh options world).run before).1
    let after := (s.step event).1
    (∀ loop l wake, after.loops.get? loop = some l → l.stage = .sleeping wake →
      (∃ m, s.loops.get? loop = some m ∧ m.stage = .sleeping wake) ∨
      ∃ identity, after.live? = some identity ∧
        let t := (fresh options world).tally loop .zero (before ++ [event])
        (t.renewals = 0 → wake = after.world.now + waitOf options identity t.rounds) ∧
        (t.misses < UInt32.size → wake = after.world.now + waitOf options identity t.misses)) ∧
    ∀ call heartbeat, .call call (.keepAlive heartbeat) ∈ (s.step event).2 →
      ∃ loop l, event = .wake loop ∧ s.loops.get? loop = some l ∧
        l.stage = .sleeping s.world.now := by
  intro s after
  constructor
  · intro loop l wake found asleep
    have tallied := tallied_run options world loop (before ++ [event])
    have backoff := (options_run (fresh options world) (before ++ [event])).1
    rw [run_concat] at tallied backoff
    have counts := (tallied.agrees l found).counts
    cases arises_course (s.step_course event) found with
    | stays same =>
      obtain ⟨m, isLoop, stage, -⟩ := same
      exact .inl ⟨m, isLoop, stage.trans asleep⟩
    | begins _ starting =>
      rw [starting] at asleep
      cases asleep
    | wakes _ _ _ paced | hears _ paced =>
      obtain ⟨identity, live, planned⟩ := wake_of_paced still backoff paced asleep
      obtain ⟨byRounds, byMisses⟩ := waitOf_of_counts options identity counts
      refine .inr ⟨identity, live, fun none => ?_, fun small => ?_⟩
      · rw [planned, byRounds none]
      · rw [planned, byMisses small]
  · intro call heartbeat sent
    exact exact_of_keepAlive (timely_run options world before) sent

def steady : KeepAliveOptions := { KeepAliveOptions.standard with jitter := 0.0 }

def refused : Reply := .ok (.heartbeat ⟨false, .nothing, ""⟩)

/-- A heartbeat is refused, and the next one is sent. -/
def refusedOnce : List Event :=
  firstHeartbeat ++ [.answer 1 refused, .elapse 10000, .wake 0]

def refusedAgain : Session :=
  (((fresh steady stillWorld).run refusedOnce).1.step (.answer 2 refused)).1

/-- A second refusal in a row makes the loop wait for four intervals. -/
theorem wait_after_two_refusals :
    steady.jitter ≤ 0.0 ∧
      (refusedAgain.loops.get? 0).map (·.stage) = some (.sleeping 35000) ∧
      ∃ identity, refusedAgain.live? = some identity ∧
        35000 = refusedAgain.world.now + waitOf steady identity 2 := by
  have asleep : (refusedAgain.loops.get? 0).map (·.stage) = some (.sleeping 35000) := by decide
  refine ⟨by decide, asleep, ?_⟩
  obtain ⟨l, found, sleeping⟩ := Option.map_eq_some_iff.mp asleep
  obtain ⟨sleeps, -⟩ :=
    wait_after_failures steady stillWorld (by decide) refusedOnce (.answer 2 refused)
  obtain ⟨m, isLoop, before⟩ | ⟨identity, live, byRounds, -⟩ := sleeps 0 l 35000 found sleeping
  -- Before the step the loop was not asleep.
  · have beating : (((fresh steady stillWorld).run refusedOnce).1.loops.get? 0).map (·.stage) ≠
        some (.sleeping 35000) := by decide
    exact absurd (Option.map_eq_some_iff.mpr ⟨m, isLoop, before⟩) beating
  · have rounds : (fresh steady stillWorld).tally 0 .zero (refusedOnce ++ [.answer 2 refused]) =
        ⟨2, 2, 0⟩ := by decide
    rw [rounds] at byRounds
    exact ⟨identity, live, byRounds rfl⟩

/-- The directory accepts a heartbeat, but calls for a new registration and breaks off. -/
def brokenOffTwice : List Event :=
  firstHeartbeat ++
    [.answer 1 (command .reconnect), .answer 2 (.error .connectionClosed), .elapse 10000, .wake 0,
      .answer 3 (command .reconnect), .answer 4 (.error .connectionClosed)]

/-- After two such rounds the wait is no longer than after one. -/
theorem wait_after_two_failed_renewals :
    let s := ((fresh steady stillWorld).run brokenOffTwice).1
    ((fresh steady stillWorld).tally 0 .zero brokenOffTwice).rounds = 2 ∧
      s.world.now = 15000 ∧ (s.loops.get? 0).map (·.stage) = some (.sleeping 25000) ∧
      s.live? = some ⟨7, 1007, "127.0.0.1:10000", 5⟩ ∧
      waitOf steady ⟨7, 1007, "127.0.0.1:10000", 5⟩ 2 = 20000 := by
  decide

end ExchangeNode.Session
