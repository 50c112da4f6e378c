import ExchangeNode.Proofs.Backoff
import ExchangeNode.Proofs.Session.Notices
import ExchangeNode.Proofs.Session.Pacing
import ExchangeNode.Proofs.Session.Stranding

/-!
# Orders to move

A node that is ordered to move gives its identity up if nothing is in flight, and that is the end of
its loop. Otherwise it is locked, and the lock is released after a while whatever orders come
meanwhile. So each order is obeyed at once or never.

`leaving_step` and `locked_step` say what one event can do to a node on its way out and to a locked
one, and `orders_obeyed` what becomes of every order in a run.
-/

namespace ExchangeNode.Session

/-- Whether the user begins a call that changes what a session holds, or locks or resets it. -/
def Event.meddles : Event → Bool
  | .lock | .reset => true
  | event => event.intervenes

/-- One registration is in play, and it is left to its loop. -/
structure Served (s : Session) : Prop where
  lone : Lone s
  enrolled : Enrolled s
  tenured : Tenured s

/-- Something holds in a run until it is ended, or for the whole of it. -/
def Until (holds : Session → Prop) (ends : Session → Event → Prop) (s : Session) :
    List Event → Prop
  | [] => holds s
  | event :: rest => holds s ∧ (ends s event ∨ Until holds ends (s.step event).1 rest)

/-- A loop gives the identity up as it was ordered, and waits for that until some time. -/
def Leaving (s : Session) (order : HeartbeatReply) (due : Nat) : Prop :=
  ∃ k l wait, s.loops.get? k = some l ∧ l.stage = .moving wait order ∧ wait.deadline = due ∧
    s.world.now ≤ due

/-- The lock is released at its time, or the node has left before. -/
def Freed (due : Nat) (s : Session) (event : Event) : Prop :=
  (event = .release ∧ s.world.now = due ∧ (s.step event).1.proposals = .empty) ∨
    ∃ order, Leaves s event order

variable {s : Session} {event : Event} {turn : Turn} {order : HeartbeatReply} {due k : Nat}
  {l : Liveness} {wait : Wait}

theorem intervenes_of_meddles (calm : event.meddles = false) : event.intervenes = false := by
  cases event with
  | lock | reset => cases calm
  | _ => exact calm

theorem engages_of_meddles (calm : event.meddles = false) : event.engages = false := by
  cases event with
  | dial | register | unregister => cases calm
  | _ => rfl

theorem registers_of_engages (calm : event.engages = false) : event.registers = false := by
  cases event with
  | dial | register => cases calm
  | _ => rfl

theorem registers_of_meddles (calm : event.meddles = false) : event.registers = false :=
  registers_of_engages (engages_of_meddles calm)

/-! ### While a session is served -/

theorem served_of_live {options : KeepAliveOptions} {world : Surroundings} {past : List Event}
    (lone : Lone ((fresh options world).run past).1)
    (live : ((fresh options world).run past).1.live?.isSome)
    (reached : ((fresh options world).run past).1.directory.isSome) :
    Served ((fresh options world).run past).1 where
  lone := lone
  enrolled :=
    { unasked := fun job work found => by
        obtain ⟨wait, rfl⟩ := lone.asking job work found
        rfl
      single := fun _ _ => lone.eq_of_alive
      reached := reached
      ordered := run_invariant
        (fun t => ∀ k l wait order, t.loops.get? k = some l → l.stage = .moving wait order →
          order.command = .serverChange)
        (fun _ event ordered => order_step ordered event)
        (fun k l wait order found => by cases found) past }
  tenured :=
    { kept := fun job wait revoking => lone.not_job revoking (by simp)
      live := fun _ _ _ => .inr live }

theorem served_step (served : Served s) (calm : event.meddles = false) :
    Served (s.step event).1 where
  lone := (lone_course served.lone (intervenes_of_meddles calm)).2
  enrolled := enrolled_step served.enrolled (registers_of_meddles calm)
  tenured := by
    refine tenured_step served.enrolled served.tenured
      (registers_of_meddles calm) ?_
    rintro job rfl
    cases calm

theorem served_run {events : List Event} (served : Served s)
    (calm : ∀ event ∈ events, event.meddles = false) : Served (s.run events).1 := by
  induction events generalizing s with
  | nil => exact served
  | cons event rest ih =>
    exact ih (served_step served (calm event List.mem_cons_self)) fun next member =>
      calm next (.tail _ member)

/-- Time does not pass beyond a deadline. -/
theorem now_step_le (listed : due ∈ s.deadlines) (inTime : s.world.now ≤ due) (event : Event) :
    (s.step event).1.world.now ≤ due := by
  rcases now_step s event with same | ⟨millis, rfl⟩
  · rw [same]
    exact inTime
  · simp only [step, elapse]
    split
    next within => simpa using List.all_eq_true.mp within due listed
    next => exact inTime

/-! ### Obeying -/

theorem lock_of_locked {p : Proposals} (locked : p.locked) : p.lock = p := by
  rw [Proposals.lock, ← locked]

/-- With nothing in flight the node gives its identity up. -/
theorem step_of_safe (served : Served s) (obeys : Obeys s event order)
    (safe : s.proposals.isSafe) :
    ∃ identity loop l, s.live? = some identity ∧
      s.step event = s.loopCalls loop l (.moving · order) (.unregister identity) := by
  obtain ⟨loop, l, wait, reply, hears, beating, answered, ordered⟩ := obeys
  have live : s.live?.isSome := by
    refine (served.tenured.live loop l (loopHears?_spec hears).1).resolve_left fun starting => ?_
    rw [beating] at starting
    cases starting
  obtain ⟨identity, isLive⟩ := Option.isSome_iff_exists.mp live
  refine ⟨identity, loop, { l with failures := if order.ok then 0 else oneMore l.failures },
    isLive, ?_⟩
  rw [step_of_loopHears? hears]
  simp only [loopAnswered, beating, answered, beaten, replied, ordered, move, safe, isLive,
    served.enrolled.reached, if_true]

/-- Otherwise it is locked, with a release unless it was locked before, and the loop goes on. -/
theorem step_of_busy (obeys : Obeys s event order) (busy : s.proposals.isSafe = false) :
    ∃ loop l, s.Alive loop ∧
      s.step event =
        ({ s with
            proposals := s.proposals.lock
            release := if s.proposals.locked then s.release
              else some (s.world.now + s.moveWait.millis) }.pause loop l, []) := by
  obtain ⟨loop, l, wait, reply, hears, beating, answered, ordered⟩ := obeys
  refine ⟨loop, { l with failures := if order.ok then 0 else oneMore l.failures },
    alive_of_get? (loopHears?_spec hears).1, ?_⟩
  rw [step_of_loopHears? hears]
  simp only [loopAnswered, beating, answered, beaten, replied, ordered, move, busy]
  cases locked : s.proposals.locked with
  | true =>
    simp only [lock_of_locked locked, if_true]
    rfl
  | false => rfl

/-! ### Leaving -/

theorem deadline_mem_deadlines (found : s.loops.get? k = some l)
    (waits : l.stage.wait? = some wait) : wait.deadline ∈ s.deadlines := by
  have listed : wait.deadline ∈
      s.loops.entries.filterMap fun entry => entry.2.stage.wait?.map (·.deadline) :=
    List.mem_filterMap.mpr ⟨(k, l), Table.mem_of_get? found, by simp [waits]⟩
  simp only [deadlines, List.mem_append]
  exact .inl (.inl (.inr listed))

/-- When the directory has answered, or not answered in time, the user is told and nothing is left. -/
theorem step_of_leaves (served : Served s) (calm : event.meddles = false)
    (leaves : Leaves s event order) :
    (s.step event).2 = [] ∧ (s.step event).1.commands = s.commands.send order ∧
      Dormant (s.step event).1 := by
  obtain ⟨loop, l, wait, reply, hears, moving⟩ := leaves
  have expired : Expired (s.step event).1 := by
    cases tells_of_leaves served.enrolled hears moving with
    | nothing stays | warns stays => exact absurd (.leaves ⟨_, _, _, _, hears, moving⟩) (stays order)
    | quits _ _ _ expired => exact expired
  refine ⟨?_, ?_, (served_step served calm).lone.asking, expired.ended⟩
  · rw [step_of_loopHears? hears]
    simp only [loopAnswered, moving]
  · rw [step_of_loopHears? hears]
    simp only [loopAnswered, moving]
    rfl

/-- Until then nothing happens but that the user asks for names. -/
theorem leaving_step (served : Served s) (calm : event.meddles = false)
    (leaving : Leaving s order due) :
    (∀ call request, .call call request ∈ (s.step event).2 → ∃ node, request = .queryNode node) ∧
    ((Leaving (s.step event).1 order due ∧ (s.step event).1.commands = s.commands) ∨
      ((s.step event).1.commands = s.commands.send order ∧ Dormant (s.step event).1)) := by
  obtain ⟨k, l, wait, found, moving, rfl, inTime⟩ := leaving
  have later := now_step_le (deadline_mem_deadlines found (by rw [moving]; rfl)) inTime event
  -- The loop that waits is the only one.
  have only {loop : Nat} {m : Liveness} (other : s.loops.get? loop = some m) : m = l := by
    obtain rfl := served.lone.eq_of_alive (alive_of_get? other) (alive_of_get? found)
    exact Option.some.inj (other.symm.trans found)
  cases hears : s.loopHears? event with
  | some entry =>
    obtain ⟨loop, m, reply⟩ := entry
    obtain rfl := only (loopHears?_spec hears).1
    obtain ⟨silent, told⟩ := step_of_leaves served calm ⟨loop, m, wait, reply, hears, moving⟩
    exact ⟨by simp [silent], .inr told⟩
  | none =>
    have course := s.step_course event
    generalize s.step event = turn at course later
    have stays (loops : turn.1.loops = s.loops) (commands : turn.1.commands = s.commands) :
        Leaving turn.1 order wait.deadline ∧ turn.1.commands = s.commands :=
      ⟨⟨k, l, wait, loops ▸ found, moving, rfl, later⟩, commands⟩
    cases course with
    | pauses other | publishes other | reconnects other | renews other | staysAsItIs other
    | moves other | movesAtOnce other | defers other | leaves other =>
      cases hears.symm.trans other
    | starts other stage | beats other stage | dies other stage | heeds other _ stage =>
      rw [only other, moving] at stage
      cases stage
    | dials | unregisters | unregistersInVain | stops | stopsAtOnce => cases calm
    | clears applies | applies applies =>
      exact absurd applies (not_applicant served.enrolled.unasked
        (registers_of_meddles calm))
    | cleared mine | stopped mine => exact (served.lone.not_job mine (by simp)).elim
    | adopts mine | forgets mine | revokes mine | revokesAtLast mine =>
      exact (served.lone.not_job (jobHears?_spec mine) (by simp)).elim
    | @asks job node =>
      refine ⟨fun call request asked => ?_, .inl (stays rfl rfl)⟩
      cases List.mem_singleton.mp asked
      exact ⟨node, rfl⟩
    | _ => exact ⟨by simp [finish], .inl (stays rfl rfl)⟩

/-- Where nothing is left the user is told nothing. -/
theorem untold_of_dormant {events : List Event} (dormant : Dormant s)
    (calm : ∀ event ∈ events, event.engages = false) :
    Dormant (s.run events).1 ∧ (s.run events).1.commands = s.commands := by
  induction events generalizing s with
  | nil => exact ⟨dormant, rfl⟩
  | cons event rest ih =>
    obtain ⟨first, others⟩ := List.forall_mem_cons.mp calm
    have expired : Expired s := by
      refine ⟨fun job work found => ?_, dormant.ended⟩
      obtain ⟨wait, rfl⟩ := dormant.asking job work found
      rfl
    obtain ⟨lasts, same⟩ := ih (dormant_course dormant first (s.step_course event)).1 others
    exact ⟨lasts, same.trans (expired_step expired (registers_of_engages first)).2⟩

/-- A node on its way out tells its user once, and its loop calls the directory no more. -/
theorem leaving_run {events : List Event} (served : Served s)
    (calm : ∀ event ∈ events, event.meddles = false) (leaving : Leaving s order due) :
    (∀ call request, .call call request ∈ (s.run events).2 →
      ∃ node, request = .queryNode node) ∧
    ((Leaving (s.run events).1 order due ∧ (s.run events).1.commands = s.commands) ∨
      ((s.run events).1.commands = s.commands.send order ∧ Dormant (s.run events).1)) := by
  induction events generalizing s with
  | nil => exact ⟨by simp [run], .inl ⟨leaving, rfl⟩⟩
  | cons event rest ih =>
    obtain ⟨first, others⟩ := List.forall_mem_cons.mp calm
    obtain ⟨asks, outcome⟩ := leaving_step served first leaving
    rw [run_cons]
    have asksOnly (later : ∀ call request, .call call request ∈ ((s.step event).1.run rest).2 →
        ∃ node, request = .queryNode node) : ∀ call request,
        .call call request ∈ (s.step event).2 ++ ((s.step event).1.run rest).2 →
          ∃ node, request = .queryNode node := by
      intro call request asked
      exact (List.mem_append.mp asked).elim (asks call request) (later call request)
    obtain ⟨still, same⟩ | ⟨told, dormant⟩ := outcome
    · obtain ⟨later, after⟩ := ih (served_step served first) others still
      rw [same] at after
      exact ⟨asksOnly later, after⟩
    · have passive (event : Event) (member : event ∈ rest) : event.engages = false :=
        engages_of_meddles (others event member)
      obtain ⟨stillDormant, same⟩ := untold_of_dormant dormant passive
      exact ⟨asksOnly fun _ _ => dormant_run dormant passive,
        .inr ⟨same.trans told, stillDormant⟩⟩

/-- What a loop is on its way out for is an order from before, or one that it obeys now with nothing
in flight. -/
theorem moving_course (course : Course s event turn) (found : turn.1.loops.get? k = some l)
    (moving : l.stage = .moving wait order) :
    (∃ m, s.loops.get? k = some m ∧ m.stage = .moving wait order) ∨
      (Obeys s event order ∧ s.proposals.isSafe) := by
  obtain ⟨m, before, same⟩ | reached := stage_course course found
  · exact .inl ⟨m, before, same.trans moving⟩
  · rw [moving] at reached
    cases reached with
    | rests free => cases free
    | moves asked obeys =>
      refine .inr ⟨obeys, ?_⟩
      cases course with
      | moves _ _ _ _ safe => exact safe
      | unregisters =>
        obtain ⟨_, _, _, _, _, same, _⟩ := obeys_spec obeys
        cases same
      | _ => simp [finish, jobCalls, loopCalls, apply] at asked

/-- So a loop that leaves in a run obeys an order of the run, unless it was on its way out before. -/
theorem obeyed_of_moving {events : List Event} (found : (s.run events).1.loops.get? k = some l)
    (moving : l.stage = .moving wait order) :
    (∃ m, s.loops.get? k = some m ∧ m.stage = .moving wait order) ∨
      ∃ earlier event later, events = earlier ++ event :: later ∧
        Obeys (s.run earlier).1 event order ∧ (s.run earlier).1.proposals.isSafe := by
  induction events generalizing s with
  | nil => exact .inl ⟨l, found, moving⟩
  | cons event rest ih =>
    rw [exists_split_cons]
    obtain ⟨m, before, same⟩ | later := ih found
    · exact (moving_course (s.step_course event) before same).imp_right .inl
    · exact .inr (.inr later)

/-! ### Locked -/

/-- A lock with a release lasts until that is due, unless the node leaves before. -/
theorem locked_step (served : Served s) (calm : event.meddles = false)
    (locked : s.proposals.locked) (pending : s.release = some due) (inTime : s.world.now ≤ due) :
    Freed due s event ∨
      ((s.step event).1.proposals.locked ∧ (s.step event).1.release = some due ∧
        (s.step event).1.world.now ≤ due) := by
  have listed : due ∈ s.deadlines := by
    rw [deadlines, pending]
    exact List.mem_append_right _ (List.mem_singleton_self due)
  have later := now_step_le listed inTime event
  have course := s.step_course event
  generalize turned : s.step event = turn at course later ⊢
  cases course with
  | leaves hears moving => exact .inl (.inr ⟨_, _, _, _, _, hears, moving⟩)
  | releases other expired =>
    obtain rfl := Option.some.inj (pending.symm.trans other)
    refine .inl (.inl ⟨rfl, Nat.le_antisymm inTime expired, ?_⟩)
    rw [turned]
  -- The node would have told the directory.
  | movesAtOnce hears beating answered ordered safe =>
    obtain ⟨_, _, _, -, turn⟩ :=
      step_of_safe served ⟨_, _, _, _, hears, beating, answered, ordered⟩ safe
    cases congrArg Prod.snd (turned.symm.trans turn)
  | defers _ _ _ _ _ unlocked =>
    rw [locked] at unlocked
    cases unlocked
  | tracks => exact .inr ⟨(locked_track _ _).trans locked, pending, later⟩
  | retires => exact .inr ⟨(locked_retire _ _).trans locked, pending, later⟩
  | dials | unregisters | unregistersInVain | stops | stopsAtOnce | locks | resets => cases calm
  | clears applies | applies applies =>
    exact absurd applies (not_applicant served.enrolled.unasked (registers_of_meddles calm))
  | cleared mine | stopped mine => exact (served.lone.not_job mine (by simp)).elim
  | adopts mine | forgets mine | revokes mine | revokesAtLast mine =>
    exact (served.lone.not_job (jobHears?_spec mine) (by simp)).elim
  | _ => exact .inr ⟨locked, pending, later⟩

theorem locked_run {events : List Event} (served : Served s)
    (calm : ∀ event ∈ events, event.meddles = false) (locked : s.proposals.locked)
    (pending : s.release = some due) (inTime : s.world.now ≤ due) :
    Until (fun t => t.proposals.locked ∧ t.world.now ≤ due) (Freed due) s events := by
  induction events generalizing s with
  | nil => exact ⟨locked, inTime⟩
  | cons event rest ih =>
    obtain ⟨first, others⟩ := List.forall_mem_cons.mp calm
    refine ⟨⟨locked, inTime⟩, ?_⟩
    refine (locked_step served first locked pending inTime).imp_right ?_
    rintro ⟨still, pending, inTime⟩
    exact ih (served_step served first) others still pending inTime

/-! ### What becomes of an order -/

/-- The node moves: the directory is told once and then the user once, and the loop does nothing else
any more. -/
structure MovesOut (s : Session) (answer : Event) (order : HeartbeatReply) (after : List Event) :
    Prop where
  unregisters : ∃ identity, s.live? = some identity ∧
    (s.step answer).2 = [.call s.nextCall (.unregister identity)]
  silent : ∀ call request, .call call request ∈ ((s.step answer).1.run after).2 →
    ∃ node, request = .queryNode node
  /-- The directory is waited for as long as any call is. -/
  publishes : let t := ((s.step answer).1.run after).1
    (t.commands = s.commands ∧ Leaving t order (s.world.now + patience.millis)) ∨
      (t.commands = s.commands.send order ∧ ∀ k, ¬ t.Alive k)

/-- The node stays, and neither the directory nor the user is told. A lock that it is given now is
released after so many milliseconds, and one that it had is left as it is. -/
structure StaysLocked (s : Session) (answer : Event) (after : List Event) (millis : Nat) : Prop where
  silent : (s.step answer).2 = []
  unpublished : (s.step answer).1.commands = s.commands
  identity : (s.step answer).1.identity = s.identity
  locks : (s.step answer).1.proposals = s.proposals.lock
  stays : s.proposals.locked → (s.step answer).1.release = s.release
  releases : s.proposals.locked = false →
    Until (fun t => t.proposals.locked ∧ t.world.now ≤ s.world.now + millis)
      (Freed (s.world.now + millis)) (s.step answer).1 after
  /-- Nothing comes of the order later on: a node that leaves obeys a later one. -/
  obeyed : ∀ earlier next later order, after = earlier ++ next :: later →
    Leaves ((s.step answer).1.run earlier).1 next order →
    ∃ before event between, earlier = before ++ event :: between ∧
      Obeys ((s.step answer).1.run before).1 event order ∧
      ((s.step answer).1.run before).1.proposals.isSafe

/-- A receiver that has read all before the order is told the order and nothing else, once the node
has left. -/
theorem MovesOut.told {answer : Event} {after : List Event}
    (moves : MovesOut s answer order after) :
    let t := ((s.step answer).1.run after).1
    (t.commands.receive s.commands.subscribe = none ∧
        Leaving t order (s.world.now + patience.millis)) ∨
      (t.commands.receive s.commands.subscribe = some (.value order, t.commands.subscribe) ∧
        ∀ k, ¬ t.Alive k) := by
  obtain ⟨same, leaving⟩ | ⟨sent, ended⟩ := moves.publishes
  · refine .inl ⟨?_, leaving⟩
    rw [same]
    exact s.commands.receive_subscribe
  · refine .inr ⟨?_, ended⟩
    rw [sent]
    exact s.commands.receive_send order

theorem StaysLocked.untold {answer : Event} {after : List Event} {millis : Nat}
    (stays : StaysLocked s answer after millis) :
    (s.step answer).1.commands.receive s.commands.subscribe = none := by
  rw [stays.unpublished]
  exact s.commands.receive_subscribe

theorem movesOut_of_safe {answer : Event} {after : List Event} (served : Served s)
    (calm : ∀ event ∈ answer :: after, event.meddles = false) (obeys : Obeys s answer order)
    (safe : s.proposals.isSafe) : MovesOut s answer order after := by
  obtain ⟨first, others⟩ := List.forall_mem_cons.mp calm
  obtain ⟨identity, loop, l, live, turn⟩ := step_of_safe served obeys safe
  have leaving : Leaving (s.step answer).1 order (s.world.now + patience.millis) := by
    rw [turn]
    exact ⟨loop, { l with stage := .moving s.newWait order }, s.newWait,
      (Table.get?_set ..).trans (if_pos rfl), rfl, rfl, Nat.le_add_right _ _⟩
  have same : (s.step answer).1.commands = s.commands := by
    rw [turn]
    rfl
  obtain ⟨silent, outcome⟩ := leaving_run (served_step served first) others leaving
  rw [same] at outcome
  refine ⟨⟨identity, live, by rw [turn]; rfl⟩, silent, ?_⟩
  exact outcome.imp And.symm (And.imp_right Dormant.ended)

theorem staysLocked_of_busy {answer : Event} {after : List Event} (served : Served s)
    (calm : ∀ event ∈ answer :: after, event.meddles = false) (obeys : Obeys s answer order)
    (busy : s.proposals.isSafe = false) : StaysLocked s answer after s.moveWait.millis := by
  obtain ⟨first, others⟩ := List.forall_mem_cons.mp calm
  obtain ⟨loop, l, alive, turn⟩ := step_of_busy obeys busy
  have still := served_step served first
  rw [turn] at still
  have resting : Rests (s.step answer).1 := by
    rw [turn]
    exact rests_of_pause fun j left => served.lone.eq_of_alive left alive
  refine ⟨by rw [turn], by rw [turn]; rfl, by rw [turn]; rfl, by rw [turn]; rfl, ?_, ?_, ?_⟩
  · intro locked
    rw [turn]
    exact if_pos locked
  · intro unlocked
    rw [turn]
    refine locked_run still others rfl ?_ (Nat.le_add_right _ _)
    exact if_neg (by simp [unlocked])
  · rintro earlier next later other - ⟨k, m, wait, _, hears, moving⟩
    obtain ⟨n, found, before⟩ | obeyed := obeyed_of_moving (loopHears?_spec hears).1 moving
    · have awake := resting k n found
      rw [before] at awake
      cases awake
    · exact obeyed

/-- What becomes of every order to move, in every run of a session that has an identity and is left to
its loop by a user who neither locks nor resets the node. -/
theorem orders_obeyed (options : KeepAliveOptions) (world : Surroundings) (past before : List Event)
    (answer : Event) (after : List Event) (order : HeartbeatReply)
    (lone : Lone ((fresh options world).run past).1)
    (live : ((fresh options world).run past).1.live?.isSome)
    (reached : ((fresh options world).run past).1.directory.isSome)
    (calm : ∀ event ∈ before ++ answer :: after, event.meddles = false)
    (obeys : Obeys (((fresh options world).run past).1.run before).1 answer order) :
    let s := (((fresh options world).run past).1.run before).1
    (s.proposals.isSafe → MovesOut s answer order after) ∧
      (s.proposals.isSafe = false →
        StaysLocked s answer after (options.serverChangeWaitSeconds.toNat * 1000)) := by
  intro s
  obtain ⟨earlier, others⟩ := List.forall_mem_append.mp calm
  have served : Served s := served_run (served_of_live lone live reached) earlier
  refine ⟨movesOut_of_safe served others obeys, fun busy => ?_⟩
  have wait : s.moveWait.millis = options.serverChangeWaitSeconds.toNat * 1000 := by
    have kept : s.moveWait = (fresh options world).moveWait :=
      (options_run _ before).2.trans (options_run _ past).2
    rw [kept]
    exact Backoff.millis_ofSeconds _
  exact wait ▸ staysLocked_of_busy served others obeys busy

/-- A lock is released after six seconds. -/
def briefLock : KeepAliveOptions := { KeepAliveOptions.standard with serverChangeWaitSeconds := 6 }

/-- The node is registered, and its first heartbeat is under way. -/
def withBriefLock : Session := ((fresh briefLock stillWorld).run firstHeartbeat).1

/-- The directory answers a heartbeat with the order to move. -/
def serverChange (call : Nat) : Event := .answer call (command .serverChange)

/-- The order comes again while the node is locked, and again after it has been released. -/
def orderedTwiceMore : List Event :=
  [.elapse 5000, .wake 0, serverChange 2, .elapse 1000, .release, .elapse 4000, .wake 0]

/-- A node that has proposed something is ordered to move after five seconds and after ten. The first
order locks it until eleven, and with the next one after that it moves. -/
theorem orders_obeyed_thrice :
    let order : HeartbeatReply := ⟨true, .serverChange, ""⟩
    let first : Event := .track (⟨1, 0, 0, 10, "ride", .ofClock 0, "", 0, none⟩ : Supply)
    let s := (withBriefLock.run [first]).1
    let t := (withBriefLock.run (first :: serverChange 1 :: orderedTwiceMore)).1
    Lone withBriefLock ∧ withBriefLock.live?.isSome ∧ withBriefLock.directory.isSome ∧
      (Obeys s (serverChange 1) order ∧ s.world.now = 5000 ∧ s.proposals.isSafe = false ∧
        s.proposals.locked = false ∧ StaysLocked s (serverChange 1) orderedTwiceMore 6000) ∧
      Obeys t (serverChange 3) order ∧ t.world.now = 15000 ∧ t.proposals.isSafe ∧
        MovesOut t (serverChange 3) order [.answer 4 (.ok (.ack .done))] := by
  intro order first s t
  have lone : Lone withBriefLock := by decide
  have live : withBriefLock.live?.isSome := by decide
  have reached : withBriefLock.directory.isSome := by decide
  have hears : s.loopHears? (serverChange 1) =
      some (0, ⟨false, 0, .beating ⟨1, 15000⟩⟩, some (command .serverChange)) := by decide
  have hearsAtLast : t.loopHears? (serverChange 3) =
      some (0, ⟨false, 0, .beating ⟨3, 25000⟩⟩, some (command .serverChange)) := by decide
  have obeys : Obeys s (serverChange 1) order := ⟨_, _, _, _, hears, rfl, rfl, rfl⟩
  have obeysAtLast : Obeys t (serverChange 3) order := ⟨_, _, _, _, hearsAtLast, rfl, rfl, rfl⟩
  have busy : s.proposals.isSafe = false := by decide
  have safe : t.proposals.isSafe := by decide
  have wait : briefLock.serverChangeWaitSeconds.toNat * 1000 = 6000 := by decide
  have stays := (orders_obeyed briefLock stillWorld firstHeartbeat [first] (serverChange 1)
    orderedTwiceMore order lone live reached (by decide) obeys).2 busy
  rw [wait] at stays
  have moves := (orders_obeyed briefLock stillWorld firstHeartbeat
    (first :: serverChange 1 :: orderedTwiceMore) (serverChange 3)
    [.answer 4 (.ok (.ack .done))] order lone live reached (by decide) obeysAtLast).1 safe
  exact ⟨lone, live, reached, ⟨obeys, by decide, busy, by decide, stays⟩, obeysAtLast, by decide,
    safe, moves⟩

end ExchangeNode.Session
