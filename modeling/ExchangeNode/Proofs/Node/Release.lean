import ExchangeNode.Proofs.Node.Tracking
import ExchangeNode.Proofs.Session.Lull
import ExchangeNode.Proofs.Session.Waiting

/-!
# A release that outlives a registration

A registration calls the pending release off, and only then waits for the loop. If that obeys an
order on its way to its end, it arms another release, and this one takes away what is proposed under
the new registration. The same becomes of an order that a loop hears only after the registration,
but there is no such loop where the user lets registrations come one after the other.

`keepsProposals_iff_quiet` says when proposals are safe after a registration has returned, and
`late_release_forgets_proposals` that they need not be.
-/

namespace ExchangeNode.Node

variable {n : Node} {since : List Event} {event : Event}

/-! ### Runs in which the directory is silent -/

theorem run_sessions (n : Node) (events : List Session.Event) :
    n.run (events.map .session) =
      ({ n with session := (n.session.run events).1 }, (n.session.run events).2) := by
  induction events generalizing n with
  | nil => rfl
  | cons event rest ih =>
    rw [List.map_cons, run_cons, ih, Session.run_cons]
    rfl

theorem regular_step (regular : n.session.Regular) (event : Event) :
    (n.step event).1.session.Regular := by
  have course := n.step_course event
  generalize n.step event = turn at course
  cases course with
  | session => exact Session.regular_step regular _
  | takes _ _ _ _ _ _ later =>
    refine ⟨regular.told, ?_, regular.numbered.own⟩
    intro k l wait found waits
    exact Nat.lt_of_lt_of_le (regular.numbered.made k l wait found waits) later
  | concludes => exact ⟨regular.told, regular.numbered.made, regular.numbered.own⟩

theorem regular_run (regular : n.session.Regular) (events : List Event) :
    (n.run events).1.session.Regular :=
  run_invariant (·.session.Regular) (fun _ event holds => regular_step holds event) regular events

/-- Where no heartbeat is sent, no order can answer one. -/
theorem not_orders_of_silent {before after : List Event} {order : HeartbeatReply}
    (silent : (n.run (before ++ event :: after)).2 = []) : ¬ n.Orders before event order := by
  rintro ⟨-, call, heartbeat, sent, -⟩
  rw [run_append] at silent
  rw [(List.append_eq_nil_iff.mp silent).1] at sent
  cases sent

/-- Where no heartbeat is sent, no reason is left but what the user does. -/
theorem not_cause_of_silent {id : UInt64} {seen : Session.Event} (silent : (n.run since).2 = [])
    (noReturn : Silent ((n.run since).1.step (.session seen)).2) (noRetire : seen ≠ .retire id)
    (noReset : seen ≠ .reset) : ¬ Cause n since id (.session seen) := by
  intro cause
  cases cause with
  | retired retires => exact noRetire (Event.session.inj retires)
  | reset resets => exact noReset (Event.session.inj resets)
  | confirmed _ answered => cases answered
  | registered returned => exact noReturn _ _ returned
  | moved _ _ ordered =>
    obtain ⟨before, answer, after, rfl, orders⟩ := ordered
    exact not_orders_of_silent silent orders
  | released _ _ armed =>
    obtain ⟨before, answer, after, order, rfl, orders, -⟩ := armed
    exact not_orders_of_silent silent orders

/-! ### A release that is pending comes due -/

/-- The user gives up all jobs with the numbers. -/
def abandonAll (jobs : List Nat) : List Event := jobs.map .abandon

theorem run_abandonAll (n : Node) (numbers : List Nat) :
    ∃ jobs errands,
      n.run (abandonAll numbers) = ({ n with session := { n.session with jobs }, errands }, []) ∧
      (∀ entry ∈ jobs.entries, entry ∈ n.session.jobs.entries ∧ entry.1 ∉ numbers) ∧
      ∀ entry ∈ errands.entries, entry ∈ n.errands.entries ∧ entry.1 ∉ numbers := by
  induction numbers generalizing n with
  | nil => exact ⟨n.session.jobs, n.errands, rfl, by simp, by simp⟩
  | cons number rest ih =>
    obtain ⟨jobs, errands, after, keptJobs, keptErrands⟩ := ih (n.step (.abandon number)).1
    refine ⟨jobs, errands, ?_, ?_, ?_⟩
    · rw [abandonAll, List.map_cons, run_cons, ← abandonAll, after]
      rfl
    · intro entry member
      obtain ⟨left, other⟩ := keptJobs entry member
      obtain ⟨before, different⟩ := List.mem_filter.mp left
      exact ⟨before, by simpa [other] using different⟩
    · intro entry member
      obtain ⟨left, other⟩ := keptErrands entry member
      obtain ⟨before, different⟩ := List.mem_filter.mp left
      exact ⟨before, by simpa [other] using different⟩

/-- Nobody waits for a job any more once the user has given up all of them. -/
theorem run_abandon (n : Node) :
    ∃ events jobs errands,
      n.run events = ({ n with session := { n.session with jobs }, errands }, []) ∧
        jobs.entries = [] ∧ errands.entries = [] := by
  let numbers := n.session.jobs.entries.map (·.1) ++ n.errands.entries.map (·.1)
  obtain ⟨jobs, errands, turn, leftJobs, leftErrands⟩ := run_abandonAll n numbers
  refine ⟨abandonAll numbers, jobs, errands, turn, ?_, ?_⟩
  · refine List.eq_nil_iff_forall_not_mem.mpr fun entry member => ?_
    obtain ⟨before, gone⟩ := leftJobs entry member
    exact gone (List.mem_append_left _ (List.mem_map_of_mem before))
  · refine List.eq_nil_iff_forall_not_mem.mpr fun entry member => ?_
    obtain ⟨before, gone⟩ := leftErrands entry member
    exact gone (List.mem_append_right _ (List.mem_map_of_mem before))

theorem deadline_eq_due {due : Nat}
    (starting : ∀ k l, n.session.loops.get? k = some l → l.stage = .starting)
    (noJobs : n.session.jobs.entries = []) (noErrands : n.errands.entries = [])
    (pending : n.session.release = some due) : ∀ deadline ∈ n.deadlines, deadline = due := by
  have resting : ∀ entry ∈ n.session.loops.entries, entry.2.stage = .starting :=
    fun entry member => starting entry.1 entry.2 (Table.get?_of_mem member)
  have noWake : n.session.loops.entries.filterMap (fun entry => entry.2.stage.wake?) = [] := by
    refine List.filterMap_eq_nil_iff.mpr fun entry member => ?_
    rw [resting entry member]
    rfl
  have noWait : n.session.loops.entries.filterMap
      (fun entry => entry.2.stage.wait?.map (·.deadline)) = [] := by
    refine List.filterMap_eq_nil_iff.mpr fun entry member => ?_
    rw [resting entry member]
    rfl
  intro deadline member
  simpa [deadlines, Session.deadlines, noWake, noWait, noJobs, noErrands, pending] using member

/-- With nothing else to wait for, time passes until the release is due. -/
theorem elapse_until_due {due : Nat} (pending : n.session.release = some due)
    (only : ∀ deadline ∈ n.deadlines, deadline = due) :
    ∃ world, n.step (.elapse (due - n.session.world.now)) =
      ({ n with session := { n.session with world } }, []) ∧ due ≤ world.now := by
  have within : ∀ deadlines : List Nat, (∀ deadline ∈ deadlines, deadline = due) →
      n.session.world.now ≤ due →
      deadlines.all (n.session.world.now + (due - n.session.world.now) ≤ ·) := by
    intro deadlines all early
    rw [List.all_eq_true]
    intro deadline member
    obtain rfl := all deadline member
    exact decide_eq_true (by omega)
  by_cases early : n.session.world.now ≤ due
  · have ofSession : ∀ deadline ∈ n.session.deadlines, deadline = due :=
      fun deadline member => only deadline (List.mem_append_left _ member)
    refine ⟨{ n.session.world with
      now := n.session.world.now + (due - n.session.world.now)
      clock := n.session.world.clock + (due - n.session.world.now : Nat) }, ?_, ?_⟩
    · simp only [step, elapse, Session.elapse, within _ only early, within _ ofSession early,
        if_true]
    · simp only
      omega
  · -- The release is overdue, and no time can pass beyond it.
    have beyond : ¬ n.deadlines.all (n.session.world.now + (due - n.session.world.now) ≤ ·) := by
      intro all
      have last : due ∈ n.deadlines := by simp [deadlines, Session.deadlines, pending]
      have reached := of_decide_eq_true (List.all_eq_true.mp all due last)
      omega
    refine ⟨n.session.world, ?_, by omega⟩
    simp only [step, elapse, if_neg beyond]

/-- The current loop has not begun, and no other leaves by an order. -/
structure Calm (s : Session) : Prop where
  staying : ∀ k l wait order, s.loops.get? k = some l → l.stage ≠ .moving wait order
  starting : ∀ k l, s.current = some k → s.loops.get? k = some l → l.stage = .starting

/-- The loops can come to rest, all jobs can be given up, and time can pass until a release is due,
without anything happening to the proposals. -/
theorem release_comes_due (regular : n.session.Regular) (calm : Calm n.session) {due : Nat}
    (pending : n.session.release = some due) :
    ∃ events, (n.run events).2 = [] ∧ (n.run events).1.session.release = some due ∧
      due ≤ (n.run events).1.session.world.now ∧
      (n.run events).1.session.proposals = n.session.proposals := by
  let others := (n.session.loops.entries.map (·.1)).filter fun k => n.session.current ≠ some k
  obtain ⟨lulls, phase, loops, lulled, rests⟩ := Session.lull_loops others regular
    (fun k member => by simpa using (List.mem_filter.mp member).2) calm.staying
  let lulledNode : Node := { n with session := { n.session with phase, loops } }
  have starting : ∀ k l, loops.get? k = some l → l.stage = .starting := by
    intro k l found
    obtain ⟨before, rest⟩ := rests k l found
    by_cases isCurrent : n.session.current = some k
    · exact calm.starting k l isCurrent before
    · have known : k ∈ n.session.loops.entries.map (·.1) :=
        List.mem_map_of_mem (f := (·.1)) (Table.mem_of_get? before)
      exact rest (List.mem_filter.mpr ⟨known, by simpa using isCurrent⟩)
  obtain ⟨abandons, jobs, errands, abandoned, noJobs, noErrands⟩ := run_abandon lulledNode
  let alone : Node := { lulledNode with session := { lulledNode.session with jobs }, errands }
  obtain ⟨world, passes, passed⟩ := elapse_until_due (n := alone) pending
    (deadline_eq_due starting noJobs noErrands pending)
  let passing : Event := .elapse (due - alone.session.world.now)
  have turn : n.run (lulls.map .session ++ (abandons ++ [passing])) =
      ({ alone with session := { alone.session with world } }, []) := by
    have last : alone.run [passing] =
        ({ alone with session := { alone.session with world } }, []) := by
      rw [run_cons, passes]
      rfl
    rw [run_append, run_sessions, lulled, run_append, abandoned, last]
    rfl
  refine ⟨_, by rw [turn], ?_, ?_, ?_⟩
  · rw [turn]
    exact pending
  · rw [turn]
    exact passed
  · rw [turn]

/-! ### What happens to the proposals -/

/-- A proposal like any other. -/
def sample : Supply := ⟨1, 0, 0, 0, "", .ofClock 0, "", 0, none⟩

theorem copies_track_sample (p : Proposals) : 0 < (p.track sample).copies sample.id := by
  simp only [Proposals.copies, Proposals.track, List.countP_append]
  have own : List.countP (fun advert : Supply => advert.id == sample.id) [sample] = 1 := by decide
  omega

/-- A release that is pending forgets what is proposed, and nobody is to blame. -/
theorem not_keepsProposals_of_release (since : List Event) (silent : (n.run since).2 = [])
    (regular : (n.run since).1.session.Regular) (calm : Calm (n.run since).1.session) {due : Nat}
    (pending : (n.run since).1.session.release = some due) {id : UInt64}
    (tracked : 0 < (n.run since).1.session.proposals.copies id) : ¬ KeepsProposals n := by
  intro keeps
  obtain ⟨events, quiet, stillPending, passed, kept⟩ := release_comes_due regular calm pending
  have silentToo : (n.run (since ++ events)).2 = [] := by
    rw [run_append, silent, List.nil_append]
    exact quiet
  have reached : (n.run (since ++ events)).1 = ((n.run since).1.run events).1 := by rw [run_append]
  have turn : (n.run (since ++ events)).1.step (.session .release) =
      ({ (n.run (since ++ events)).1 with session := { (n.run (since ++ events)).1.session with
        release := none, proposals := .empty } }, []) := by
    rw [reached]
    simp only [step, ofSession, Session.step, Session.releaseLock, stillPending, passed, if_true]
  have lost : ((n.run (since ++ events)).1.step (.session .release)).1.session.proposals.copies id <
      (n.run (since ++ events)).1.session.proposals.copies id := by
    rw [turn, reached, kept]
    exact tracked
  have cause := keeps _ _ id lost
  exact not_cause_of_silent silentToo (by rw [turn]; exact silent_nil) (by simp) (by simp) cause

theorem not_keepsProposals_of_pending (regular : n.session.Regular) (calm : Calm n.session)
    {due : Nat} (pending : n.session.release = some due) : ¬ KeepsProposals n := by
  let since : List Event := [.session (.track sample)]
  have calmAfter : Calm (n.run since).1.session := ⟨calm.staying, calm.starting⟩
  exact not_keepsProposals_of_release since rfl (regular_run regular since) calmAfter pending
    (copies_track_sample n.session.proposals)

/-- An order that a loop follows already takes away what is proposed meanwhile. -/
theorem not_keepsProposals_of_moving (regular : n.session.Regular) {k : Nat} {l : Liveness}
    {wait : Wait} {order : HeartbeatReply} (found : n.session.loops.get? k = some l)
    (moving : l.stage = .moving wait order) : ¬ KeepsProposals n := by
  intro keeps
  let since : List Event := [.session (.track sample)]
  have waits : l.stage.wait? = some wait := by rw [moving]; rfl
  have hears := Session.loopHears?_answer (s := (n.run since).1.session)
    (regular_run regular since).numbered found waits (.ok (.ack .done))
  have turn := Session.step_of_loopHears? hears
  simp only [Session.loopAnswered, moving] at turn
  let answer : Event := .session (.answer wait.call (.ok (.ack .done)))
  have effects : ((n.run since).1.step answer).2 = [] := congrArg Prod.snd turn
  have forgotten : ((n.run since).1.step answer).1.session.proposals = .empty :=
    congrArg (·.1.proposals) turn
  have lost : ((n.run since).1.step answer).1.session.proposals.copies sample.id <
      (n.run since).1.session.proposals.copies sample.id := by
    rw [forgotten]
    exact copies_track_sample n.session.proposals
  have cause := keeps _ _ sample.id lost
  exact not_cause_of_silent rfl (by rw [effects]; exact silent_nil) (by simp) (by simp) cause

/-- A loop that pauses leaves the others calm. -/
theorem calm_of_pause {s : Session} (calm : Calm s) {k : Nat} {l m : Liveness}
    (found : s.loops.get? k = some l) (begun : l.stage ≠ .starting) : Calm (s.pause k m) where
  staying j after wait order isLoop moving := by
    obtain ⟨before, wasLoop, same, -⟩ | ⟨-, free, -⟩ := Session.stays_of_pause isLoop
    · exact calm.staying j before wait order wasLoop (same.trans moving)
    · rw [moving] at free
      cases free
  starting j after isCurrent isLoop := by
    obtain ⟨before, wasLoop, same, -⟩ | ⟨rfl, -, -⟩ := Session.stays_of_pause isLoop
    · exact same.symm.trans (calm.starting j before isCurrent wasLoop)
    · exact absurd (calm.starting j l isCurrent found) begun

/-- A loop that is ordered to move with a proposal in flight arms a release. -/
theorem step_of_order {s : Session} (regular : s.Regular) (busy : s.proposals.isSafe = false)
    (unlocked : s.proposals.locked = false) {k : Nat} {l : Liveness} {wait : Wait}
    (found : s.loops.get? k = some l) (beating : l.stage = .beating wait) :
    s.step (.answer wait.call (Session.command .serverChange)) =
      ({ s with
          proposals := s.proposals.lock
          release := some (s.world.now + s.moveWait.millis) }.pause k { l with failures := 0 },
        []) := by
  have waits : l.stage.wait? = some wait := by rw [beating]; rfl
  have hears := Session.loopHears?_answer regular.numbered found waits
    (Session.command .serverChange)
  have obeys : s.move k { l with failures := 0 } ⟨true, .serverChange, ""⟩ =
      ({ s with
          proposals := s.proposals.lock
          release := some (s.world.now + s.moveWait.millis) }.pause k { l with failures := 0 },
        []) := by
    simp only [Session.move, busy, unlocked, if_false, Bool.false_eq_true]
  rw [Session.step_of_loopHears? hears, ← obeys]
  simp only [Session.loopAnswered, beating]
  rfl

/-- A loop that waits for the answer to its heartbeat can still be ordered to move, and the release
that it then arms takes away what is proposed. -/
theorem not_keepsProposals_of_beating (regular : n.session.Regular) (calm : Calm n.session)
    (unlocked : n.session.proposals.locked = false) {k : Nat} {l : Liveness} {wait : Wait}
    (found : n.session.loops.get? k = some l) (beating : l.stage = .beating wait) :
    ¬ KeepsProposals n := by
  let tracking : Session := { n.session with proposals := n.session.proposals.track sample }
  let armed : Session := { tracking with
    proposals := tracking.proposals.lock
    release := some (tracking.world.now + tracking.moveWait.millis) }
  let since : List Session.Event :=
    [.track sample, .answer wait.call (Session.command .serverChange)]
  have busy : tracking.proposals.isSafe = false := by
    simp [tracking, Proposals.isSafe, Proposals.track]
  have turn : n.session.run since = (armed.pause k { l with failures := 0 }, []) := by
    have tracks : n.session.step (.track sample) = (tracking, []) := rfl
    have obeys := step_of_order (s := tracking) (Session.regular_step regular (.track sample)) busy
      unlocked found beating
    rw [Session.run_cons, Session.run_cons, tracks, obeys]
    rfl
  have reached : n.run (since.map .session) =
      ({ n with session := armed.pause k { l with failures := 0 } }, []) := by
    rw [run_sessions, turn]
  have calmAfter : Calm (n.run (since.map .session)).1.session := by
    rw [reached]
    exact calm_of_pause (s := armed) ⟨calm.staying, calm.starting⟩ found (by simp [beating])
  have tracked : 0 < (n.run (since.map .session)).1.session.proposals.copies sample.id := by
    rw [reached]
    exact copies_track_sample n.session.proposals
  exact not_keepsProposals_of_release (since.map .session) (by rw [reached])
    (regular_run regular _) calmAfter (by rw [reached]; rfl) tracked

/-- Where the current loop has not begun and no lock is held, proposals are safe just if no release
is pending and no loop is left that could arm one or obey an order. -/
theorem keepsProposals_iff (regular : n.session.Regular)
    (unlocked : n.session.proposals.locked = false)
    (starting : ∀ k l, n.session.current = some k → n.session.loops.get? k = some l →
      l.stage = .starting) :
    KeepsProposals n ↔ n.session.release = none ∧ Quiet n := by
  constructor
  · intro keeps
    -- A loop that leaves already forgets at once; the other loops can then be brought to rest.
    have staying : ∀ k l wait order, n.session.loops.get? k = some l →
        l.stage ≠ .moving wait order :=
      fun _ _ _ _ found moving => not_keepsProposals_of_moving regular found moving keeps
    have calm : Calm n.session := ⟨staying, starting⟩
    have idle : n.session.release = none := by
      cases pending : n.session.release with
      | none => rfl
      | some due => exact absurd keeps (not_keepsProposals_of_pending regular calm pending)
    have quiet : Quiet n := by
      intro k l found
      constructor
      · intro wait beating
        exact not_keepsProposals_of_beating regular calm unlocked found beating keeps
      · exact fun wait order => staying k l wait order found
    exact ⟨idle, quiet⟩
  · exact fun ⟨idle, quiet⟩ => keepsProposals_of_quiet quiet idle

/-! ### When a registration returns -/

/-- The turn in which a registration returns is one of the session. -/
theorem session_of_returned {job : Nat} {address : String}
    (returned : .finish job (.exchange address) ∈ (n.step event).2) :
    ∃ seen, n.seen? event = some seen ∧ (n.step event).1.session = (n.session.step seen).1 ∧
      .finish job (.exchange address) ∈ (n.session.step seen).2 := by
  have course := n.step_course event
  generalize n.step event = turn at course returned
  cases course with
  | session errands sees => exact ⟨_, sees, rfl, returned⟩
  | takes _ _ _ _ _ silent => exact absurd returned (silent job address)
  | concludes _ _ _ _ silent => exact absurd returned (silent job address)

/-- The user of the session lets the jobs that wait for a loop be, and registers only when there are
none, nor another registration, all through a run. -/
def Orderly (n : Node) : List Event → Prop
  | [] => True
  | event :: rest => (∀ seen ∈ n.seen? event, n.session.Proper seen) ∧ (n.step event).1.Orderly rest

instance decidableOrderly : (n : Node) → (events : List Event) → Decidable (n.Orderly events)
  | _, [] => isTrue trivial
  | n, event :: rest =>
    have := decidableOrderly (n.step event).1 rest
    inferInstanceAs (Decidable (_ ∧ _))

theorem settled_step (settled : n.session.Settled)
    (proper : ∀ seen ∈ n.seen? event, n.session.Proper seen) :
    (n.step event).1.session.Settled := by
  have course := n.step_course event
  generalize n.step event = after at course
  cases course with
  | session errands sees => exact Session.settled_step settled (proper _ sees)
  | takes => exact settled.of_fewer (fun _ => .inl) rfl rfl
  | concludes => exact settled.of_fewer (fun _ => .inl) rfl rfl

theorem settled_run (settled : n.session.Settled) {events : List Event}
    (orderly : n.Orderly events) : (n.run events).1.session.Settled := by
  induction events generalizing n with
  | nil => exact settled
  | cons event rest ih => exact ih (settled_step settled orderly.1) orderly.2

/-- After a registration in good order its loop is the only one that is left. -/
theorem quiet_of_returned (settled : n.session.Settled) {job : Nat} {address : String}
    (returned : .finish job (.exchange address) ∈ (n.step event).2) : Quiet (n.step event).1 := by
  obtain ⟨seen, -, session, finished⟩ := session_of_returned returned
  intro k l found
  rw [session] at found
  rw [Session.starting_of_returned settled (n.session.step_course seen) finished found]
  exact ⟨nofun, nofun⟩

/-- Once a registration has returned, after any past, proposals leave for a reason from then on just
if no release is pending at that moment and no loop waits for the answer to a heartbeat or leaves by
an order. There is no such loop where the user has kept registrations apart. -/
theorem keepsProposals_iff_quiet (options : KeepAliveOptions) (world : Surroundings)
    (past : List Event) (event : Event) (job : Nat) (address : String)
    (returned : .finish job (.exchange address) ∈
      (((fresh options world).run past).1.step event).2) :
    (KeepsProposals (((fresh options world).run past).1.step event).1 ↔
      (((fresh options world).run past).1.step event).1.session.release = none ∧
        Quiet (((fresh options world).run past).1.step event).1) ∧
    ((fresh options world).Orderly past →
      Quiet (((fresh options world).run past).1.step event).1) := by
  have regular : (fresh options world).session.Regular := Session.regular_fresh options world
  have after := regular_step (regular_run regular past) event
  obtain ⟨seen, -, session, finished⟩ := session_of_returned returned
  have adopted := Session.adopted_of_returned
    (((fresh options world).run past).1.session.step_course seen) finished
  rw [← session] at adopted
  refine ⟨keepsProposals_iff after (by rw [adopted.1]; rfl) adopted.2, fun orderly => ?_⟩
  exact quiet_of_returned (settled_run (Session.settled_fresh options world) orderly) returned

/-- A node registers, proposes and registers again. The loop is told to stop while its heartbeat is
under way, and ends once that is answered with the given command. -/
def secondRegistration (order : DirectoryCommand) : List Event :=
  Session.firstHeartbeat.map .session ++
    [.session (.track sample),
      .session (.register 1 "127.0.0.1:9000" (.ofNode "sensor-1" [10] none)),
      .answer 1 (Session.command order), .session (.heed 0), .session (.proceed 1)]

/-- The directory grants number eight, and asks for a heartbeat every minute. -/
def minutelyGrant : Event := .answer 2 (.ok (.identity ⟨8, 1008, "127.0.0.1:10000", 60⟩))

theorem second_registration_keepsProposals_iff_quiet :
    .finish 1 (.exchange "127.0.0.1:10000") ∈
        (((fresh .standard Session.stillWorld).run (secondRegistration .nothing)).1.step
          minutelyGrant).2 ∧
      (KeepsProposals (((fresh .standard Session.stillWorld).run
          (secondRegistration .nothing)).1.step minutelyGrant).1 ↔
        (((fresh .standard Session.stillWorld).run (secondRegistration .nothing)).1.step
          minutelyGrant).1.session.release = none ∧
        Quiet (((fresh .standard Session.stillWorld).run (secondRegistration .nothing)).1.step
          minutelyGrant).1) ∧
      Quiet (((fresh .standard Session.stillWorld).run (secondRegistration .nothing)).1.step
        minutelyGrant).1 := by
  have returned : .finish 1 (.exchange "127.0.0.1:10000") ∈
      (((fresh .standard Session.stillWorld).run (secondRegistration .nothing)).1.step
        minutelyGrant).2 := by decide
  have orderly : (fresh .standard Session.stillWorld).Orderly (secondRegistration .nothing) := by
    decide
  obtain ⟨keeps, quiet⟩ := keepsProposals_iff_quiet .standard Session.stillWorld
    (secondRegistration .nothing) minutelyGrant 1 "127.0.0.1:10000" returned
  exact ⟨returned, keeps, quiet orderly⟩

/-- The node after a registration that came back while the order to move was obeyed. -/
def lateOrder : Node :=
  (((fresh .standard Session.stillWorld).run (secondRegistration .serverChange)).1.step
    minutelyGrant).1

/-- The user proposes, the new loop begins, and half a minute passes. -/
def halfMinute : List Event := [.session (.track sample), .session (.wake 1), .elapse 30000]

/-- The release armed under the first registration forgets what was proposed under the second. -/
theorem late_release_forgets_proposals :
    (fresh .standard Session.stillWorld).Orderly (secondRegistration .serverChange) ∧
      .finish 1 (.exchange "127.0.0.1:10000") ∈
        (((fresh .standard Session.stillWorld).run (secondRegistration .serverChange)).1.step
          minutelyGrant).2 ∧
      (lateOrder.run halfMinute).1.session.proposals.copies 1 = 1 ∧
      ((lateOrder.run halfMinute).1.step (.session .release)).1.session.proposals.copies 1 = 0 ∧
      ¬ Cause lateOrder halfMinute 1 (.session .release) ∧ ¬ KeepsProposals lateOrder := by
  have before : (lateOrder.run halfMinute).1.session.proposals.copies 1 = 1 := by decide
  have after : ((lateOrder.run halfMinute).1.step (.session .release)).1.session.proposals.copies 1
      = 0 := by decide
  have noReturn : Silent ((lateOrder.run halfMinute).1.step (.session .release)).2 := silent_nil
  have blameless : ¬ Cause lateOrder halfMinute 1 (.session .release) :=
    not_cause_of_silent rfl noReturn (by nofun) (by nofun)
  refine ⟨by decide, by decide, before, after, blameless, ?_⟩
  intro keeps
  exact blameless (keeps halfMinute (.session .release) 1 (by rw [before, after]; decide))

end ExchangeNode.Node
