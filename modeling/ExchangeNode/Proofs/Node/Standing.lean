import ExchangeNode.Proofs.Node.Origin
import ExchangeNode.Proofs.Proposals

/-!
# Which proposals a node tracks

A proposal is tracked from the answer with which the exchange accepts it until a consent to its
match is acknowledged, the user retires it, or all are forgotten. Calls of any number of clients may
be under way meanwhile; their order does not matter, only that of the answers.

`Node.deeds` reads off a run what was done to the proposals, and `proposals_eq_standing` says that
those which stand by that are the ones that are tracked.
-/

namespace ExchangeNode

/-- Whether a call was answered, with an acknowledgment that grants it. -/
def granted : Option Reply → Bool
  | some (.ok (.ack ack)) => ack.ok
  | _ => false

/-- What an operation does to the proposals if its call is granted. -/
def Operation.deed? : Operation → Request → Option Deed
  | .propose _ _, .propose advert => some (.accepted advert)
  | .confirm _ proposal, _ => proposal.map .retired
  | _, _ => none

/-- What is done to the proposals if a call that is under way is granted. -/
def Pending.deed? : Pending → Option Deed
  | .proposed advert => some (.accepted advert)
  | .confirmed _ proposal => proposal.map .retired
  | _ => none

/-- How an operation on the proposals ends if its call is granted. -/
def Operation.success? : Operation → Request → Option Outcome
  | .propose _ _, .propose advert => some (.issued advert.id)
  | .confirm _ _, _ => some .done
  | _, _ => none

theorem deed?_of_becomes {bus : UInt64} {operation : Operation} {request : Request}
    {pending : Pending} (becomes : operation.Becomes bus request pending) :
    pending.deed? = operation.deed? request := by
  cases becomes <;> rfl

namespace Client

/-- The end of a call does to the proposals what it is to do if it is granted, and else nothing. -/
theorem proposals_conclude (c : Client) (p : Proposals) (pending : Pending) (reply : Option Reply) :
    (c.conclude p pending reply).2.1 =
      if granted reply then pending.deed?.elim p p.after else p := by
  match reply with
  | none => rfl
  | some (.error e) => rfl
  | some (.ok response) =>
    cases pending with
    -- A consent that is granted retires a proposal only if the user has named one.
    | confirmed matched proposal =>
      cases response with
      | ack ack =>
        obtain ⟨grants, err⟩ := ack
        cases grants with
        | false => rfl
        | true => cases proposal <;> rfl
      | _ => rfl
    | selected side =>
      cases side with
      | supply | demand =>
        cases response with
        | ack ack =>
          obtain ⟨grants, err⟩ := ack
          cases grants <;> rfl
        | confirmation confirmation =>
          obtain ⟨grants, bus, err⟩ := confirmation
          cases grants <;> rfl
        | _ => rfl
    | _ =>
      cases response with
      | ack ack =>
        obtain ⟨grants, err⟩ := ack
        cases grants <;> rfl
      | _ => rfl

/-- An operation on the proposals succeeds just if its call is granted. -/
theorem outcome_conclude_iff {bus : UInt64} {operation : Operation} {request : Request}
    {pending : Pending} (becomes : operation.Becomes bus request pending) {outcome : Outcome}
    (success : operation.success? request = some outcome) (c : Client) (p : Proposals)
    (reply : Option Reply) : (c.conclude p pending reply).2.2 = outcome ↔ granted reply := by
  have failed (e : NodeError) : Outcome.failed e ≠ outcome := by
    rintro rfl
    cases becomes <;> cases success
  match reply with
  | none => exact iff_of_false (failed _) Bool.false_ne_true
  | some (.error e) => exact iff_of_false (failed _) Bool.false_ne_true
  | some (.ok response) =>
    cases becomes with
    | propose | confirm =>
      cases response with
      | ack ack =>
        obtain ⟨grants, err⟩ := ack
        cases grants with
        | false => exact iff_of_false (failed _) Bool.false_ne_true
        | true => exact iff_of_true (Option.some.inj success) rfl
      | _ => exact iff_of_false (failed _) Bool.false_ne_true
    | _ => cases success

end Client

/-! ### What a session does to its proposals -/

/-- Whether a loop leaves its exchange when it hears the end of its call. -/
def Stage.leaves : Stage → Bool
  | .moving _ _ => true
  | _ => false

/-- Whether a job takes an identity on when it hears the end of its call. -/
def Work.adopts (reply : Option Reply) : Work → Bool
  | .registering _ _ _ =>
    match Session.judge .register reply with
    | .ok identity => IdGenerator.accepts identity.node.toInt
    | .error _ => false
  | _ => false

namespace Session

/-- Whether all proposals are forgotten when a call comes to its end: the node has left its
exchange, or has been registered. -/
def forgets (s : Session) (event : Event) : Bool :=
  (s.loopHears? event).any (fun (_, l, _) => l.stage.leaves) ||
    (s.jobHears? event).any fun (_, work, reply) => work.adopts reply

/-- What an event does to the proposals. -/
def deed? (s : Session) : Event → Option Deed
  | .track advert => some (.accepted advert)
  | .retire id => some (.retired id)
  | .reset => some .forgotten
  | .release => if s.release.any (· ≤ s.world.now) then some .forgotten else none
  | event => if s.forgets event then some .forgotten else none

variable {s : Session} {event : Event} {turn : Turn}

theorem deed?_of_heard (heard : (s.heard? event).isSome) :
    s.deed? event = if s.forgets event then some .forgotten else none := by
  cases event with
  | answer | timeout => rfl
  | _ => cases heard

theorem deed?_of_loopHears? {loop : Nat} {l : Liveness} {reply : Option Reply}
    (hears : s.loopHears? event = some (loop, l, reply)) :
    s.deed? event = if l.stage.leaves then some .forgotten else none := by
  obtain ⟨-, wait, -, heard⟩ := loopHears?_spec hears
  rw [deed?_of_heard (by simp [heard]), forgets, hears, jobHears?_of_loopHears? hears]
  simp

theorem deed?_of_jobHears? {job : Nat} {work : Work} {reply : Option Reply}
    (hears : s.jobHears? event = some (job, work, reply)) :
    s.deed? event = if work.adopts reply then some .forgotten else none := by
  obtain ⟨wait, -, heard⟩ := heard?_of_jobHears? hears
  rw [deed?_of_heard (by simp [heard]), forgets, hears, loopHears?_of_jobHears? hears]
  simp

theorem deed?_of_unheard (may : event.mayMiss) (running : event ≠ .release)
    (noLoop : s.loopHears? event = none) (noJob : s.jobHears? event = none) :
    s.deed? event = none := by
  have kept : s.forgets event = false := by simp [forgets, noLoop, noJob]
  cases event with
  | release => exact absurd rfl running
  | dialed | answer | timeout | wake | heed | proceed => simp [deed?, kept]
  | _ => cases may

theorem proposals_release (s : Session) : ∃ locked, s.releaseLock.proposals =
    { (s.deed? .release).elim s.proposals s.proposals.after with locked } := by
  simp only [releaseLock, deed?]
  cases pending : s.release with
  | none => exact ⟨_, rfl⟩
  | some due =>
    by_cases expired : due ≤ s.world.now
    · simp only [expired, Option.any_some, decide_true, if_true]
      exact ⟨_, rfl⟩
    · simp only [expired, Option.any_some, decide_false, if_false, Bool.false_eq_true]
      exact ⟨_, rfl⟩

theorem unlock_of_isSafe {p : Proposals} (safe : p.isSafe) :
    { p with locked := false } = Proposals.empty := by
  obtain ⟨supplies, demands, locked⟩ := p
  simp only [Proposals.isSafe, Bool.and_eq_true, List.isEmpty_iff] at safe
  simp [Proposals.empty, safe]

/-- An event does to the proposals what it is said to do; beyond that it can only lock them. -/
theorem proposals_step (s : Session) (event : Event) :
    ∃ locked, (s.step event).1.proposals =
      { (s.deed? event).elim s.proposals s.proposals.after with locked } := by
  by_cases timer : event = .release
  · subst timer
    exact s.proposals_release
  have course := s.step_course event
  generalize s.step event = turn at course
  have kept (none : s.deed? event = none) (locked : Bool)
      (same : turn.1.proposals = { s.proposals with locked }) : ∃ locked, turn.1.proposals =
        { (s.deed? event).elim s.proposals s.proposals.after with locked } :=
    ⟨locked, by rw [none]; exact same⟩
  have forgotten (some : s.deed? event = some .forgotten)
      (gone : turn.1.proposals = .empty) : ∃ locked, turn.1.proposals =
        { (s.deed? event).elim s.proposals s.proposals.after with locked } :=
    ⟨false, by rw [some]; exact gone⟩
  cases course with
  -- The timer apart, what nobody hears does nothing.
  | misses may noLoop noJob => exact kept (deed?_of_unheard may timer noLoop noJob) _ rfl
  | outside world isOutside =>
    cases event with
    | elapse | setClock | setRandom | setLoad => exact kept rfl _ rfl
    | _ => cases isOutside
  | clears applies | applies applies =>
    obtain rfl | ⟨rfl, -⟩ := applicant?_spec applies
    · exact kept rfl _ rfl
    · exact kept rfl _ rfl
  | adopts hears granted accepted =>
    exact forgotten (by rw [deed?_of_jobHears? hears]; simp [Work.adopts, granted, accepted]) rfl
  | forgets hears denied =>
    refine kept ?_ _ rfl
    rw [deed?_of_jobHears? hears, Work.adopts]
    split <;> simp_all
  | revokes hears | revokesAtLast hears | learns hears => exact kept (deed?_of_jobHears? hears) _ rfl
  | pauses hears beating | publishes hears beating | reconnects hears beating
  | moves hears beating | defers hears beating =>
    exact kept (by rw [deed?_of_loopHears? hears, beating]; rfl) _ rfl
  | renews hears reconnecting | staysAsItIs hears reconnecting =>
    exact kept (by rw [deed?_of_loopHears? hears, reconnecting]; rfl) _ rfl
  -- With nothing in flight all that is forgotten is the lock.
  | movesAtOnce hears beating _ _ safe =>
    refine kept ?_ false (unlock_of_isSafe safe).symm
    rw [deed?_of_loopHears? hears, beating]
    rfl
  | leaves hears moving =>
    exact forgotten (by rw [deed?_of_loopHears? hears, moving]; rfl) rfl
  | releases => exact absurd rfl timer
  | tracks | retires | resets => exact ⟨_, rfl⟩
  | _ => exact kept rfl _ rfl

end Session

/-! ### What a node does to them -/

namespace Node

/-- What an event does to the proposals: it may bring a call of a client to its end, or be one of
the session. -/
def deed? (n : Node) (event : Event) : Option Deed :=
  match n.errandHears? event with
  | some (_, .asking number pending _ _, reply) =>
    if (n.clients.get? number).isSome && granted reply then pending.deed? else none
  | _ => (n.seen? event).bind n.session.deed?

/-- Everything that a run does to the proposals, in order. -/
def deeds (n : Node) : List Event → List Deed
  | [] => []
  | event :: rest => (n.deed? event).toList ++ (n.step event).1.deeds rest

variable {n : Node} {event : Event} {number job : Nat} {pending : Pending} {wait : Wait}
  {switch : StopSwitch} {reply : Option Reply}

/-- A call that is waited for and whose end nobody hears has been given up too early. -/
theorem step_of_early {call : Nat} {entry : Nat × Errand} (unheard : n.errandHears? event = none)
    (ends : event.ended? = some (call, reply)) (asking : n.errandWaiting? call = some entry) :
    n.step event = (n, []) := by
  cases event with
  | answer other given =>
    cases ends
    simp [errandHears?, asking] at unheard
  | timeout other =>
    cases ends
    have early : entry.2.wait?.any (·.deadline ≤ n.session.world.now) = false := by
      by_contra late
      simp [errandHears?, asking, Option.filter, late] at unheard
    simp [step, timeout, asking, early]
  | _ => cases ends

theorem proposals_of_unheard (unheard : n.errandHears? event = none) :
    (n.step event).1.session.proposals =
      (n.seen? event).elim n.session.proposals fun seen => (n.session.step seen).1.proposals := by
  have course := n.step_course event
  generalize turn : n.step event = after at course
  cases course with
  | session errands sees =>
    rw [sees]
    rfl
  | takes _ _ _ _ unseen =>
    rw [unseen]
    rfl
  | concludes c _ _ unseen _ ends asking =>
    rw [unseen, ← turn, step_of_early unheard ends asking]
    rfl

theorem proposals_of_hears
    (hears : n.errandHears? event = some (job, .asking number pending wait switch, reply)) :
    (n.step event).1.session.proposals =
      (n.deed? event).elim n.session.proposals n.session.proposals.after := by
  simp only [deed?, hears]
  cases found : n.clients.get? number with
  | none =>
    obtain ⟨-, -, -, turn⟩ := errandHears?_spec hears
    simp only [turn, errandAnswered, found]
    rfl
  | some c =>
    obtain ⟨-, proposals⟩ := settled_of_hears hears found
    rw [proposals, c.proposals_conclude]
    cases granted reply with
    | false | true => rfl

/-- An event does to the proposals what it is said to do; beyond that it can only lock them. -/
theorem proposals_step (n : Node) (event : Event) :
    ∃ locked, (n.step event).1.session.proposals =
      { (n.deed? event).elim n.session.proposals n.session.proposals.after with locked } := by
  cases hears : n.errandHears? event with
  | none =>
    rw [proposals_of_unheard hears]
    simp only [deed?, hears]
    cases n.seen? event with
    | none => exact ⟨_, rfl⟩
    | some seen => exact n.session.proposals_step seen
  | some entry =>
    obtain ⟨job, errand, reply⟩ := entry
    obtain ⟨call, -, waiting, -⟩ := errandHears?_spec hears
    obtain ⟨number, pending, wait, switch, rfl, -, -⟩ := errandWaiting?_spec waiting
    exact ⟨_, proposals_of_hears hears⟩

/-! ### Runs -/

theorem deeds_append (n : Node) (first more : List Event) :
    n.deeds (first ++ more) = n.deeds first ++ (n.run first).1.deeds more := by
  induction first generalizing n with
  | nil => rfl
  | cons event rest ih => simp only [List.cons_append, deeds, ih, run_cons, List.append_assoc]

theorem deeds_concat (n : Node) (events : List Event) (event : Event) :
    n.deeds (events ++ [event]) = n.deeds events ++ ((n.run events).1.deed? event).toList := by
  simp [deeds_append, deeds]

/-- The proposals that are tracked after a run are those that stand by what was done in it. -/
theorem faithful_run (options : KeepAliveOptions) (world : Surroundings) {events : List Event}
    (distinct : (acceptedIds ((fresh options world).deeds events)).Nodup) :
    Faithful ((fresh options world).run events).1.session.proposals
      ((fresh options world).deeds events) := by
  induction events using List.reverseRecOn with
  | nil => exact ⟨rfl, rfl⟩
  | append_singleton past event ih =>
    rw [deeds_concat, acceptedIds_append] at distinct
    have before := ih (List.nodup_append.mp distinct).1
    obtain ⟨locked, proposals⟩ := ((fresh options world).run past).1.proposals_step event
    rw [run_concat, deeds_concat, proposals]
    cases ((fresh options world).run past).1.deed? event with
    | none => simpa using ⟨before.supplies, before.demands⟩
    | some deed =>
      have after := before.after (List.nodup_append.mp distinct).1 deed
      exact ⟨after.supplies, after.demands⟩

/-- Why an event after a run does something to the proposals: it grants the call of an operation
that does so, or it is an event of the session. -/
inductive Does (start : Node) (before : List Event) (event : Event) (deed : Deed) : Prop where
  | granted {job number operation c request reply}
      (concludes : start.Concludes before event job number operation c request reply)
      (grants : granted reply) (does : operation.deed? request = some deed)
  | own {seen} (sees : (start.run before).1.seen? event = some seen)
      (does : (start.run before).1.session.deed? seen = some deed)

section

variable (options : KeepAliveOptions) (world : Surroundings) {before : List Event} {deed : Deed}
  {operation : Operation} {c : Client} {request : Request}

theorem deed?_of_concludes
    (concludes : (fresh options world).Concludes before event job number operation c request
      reply) :
    ((fresh options world).run before).1.deed? event =
      if granted reply then operation.deed? request else none := by
  obtain ⟨pending, wait, switch, becomes, hears, held⟩ :=
    hears_of_concludes options world concludes
  simp only [deed?, hears, held, Bool.true_and, deed?_of_becomes becomes]

/-- What the session sees, no client hears. -/
theorem unheard_of_seen? {seen : Session.Event} (sees : n.seen? event = some seen) :
    n.errandHears? event = none := by
  cases event with
  | answer call given | timeout call =>
    simp only [seen?] at sees
    split at sees
    · cases sees
    next free => simp [errandHears?, free]
  | _ => rfl

theorem deed?_eq_some_iff :
    ((fresh options world).run before).1.deed? event = some deed ↔
      Does (fresh options world) before event deed := by
  constructor
  · intro does
    cases hears : ((fresh options world).run before).1.errandHears? event with
    | none =>
      simp only [deed?, hears] at does
      obtain ⟨seen, sees, own⟩ := Option.bind_eq_some_iff.mp does
      exact .own sees own
    | some entry =>
      obtain ⟨job, errand, reply⟩ := entry
      obtain ⟨call, -, waiting, -⟩ := errandHears?_spec hears
      obtain ⟨number, pending, wait, switch, rfl, -, -⟩ := errandWaiting?_spec waiting
      obtain ⟨operation, c, request, concludes, -⟩ := concludes_of_hears options world hears
      rw [deed?_of_concludes options world concludes] at does
      split at does
      next grants => exact .granted concludes grants does
      next => cases does
  · rintro (⟨concludes, grants, does⟩ | ⟨sees, does⟩)
    · rw [deed?_of_concludes options world concludes, if_pos grants, does]
    · simp only [deed?, unheard_of_seen? sees, sees, Option.bind_some, does]

/-- The user learns that an operation on the proposals has succeeded just if its call is granted. -/
theorem success_iff {outcome : Outcome}
    (concludes : (fresh options world).Concludes before event job number operation c request
      reply) (success : operation.success? request = some outcome) :
    .finish job outcome ∈ (((fresh options world).run before).1.step event).2 ↔ granted reply := by
  obtain ⟨pending, wait, switch, becomes, hears, held⟩ :=
    hears_of_concludes options world concludes
  obtain ⟨now, found⟩ := Option.isSome_iff_exists.mp held
  obtain ⟨-, -, -, turn⟩ := errandHears?_spec hears
  rw [← Client.outcome_conclude_iff becomes success now
    ((fresh options world).run before).1.session.proposals reply]
  have effects : (((fresh options world).run before).1.step event).2 = [.finish job
      (now.conclude ((fresh options world).run before).1.session.proposals pending reply).2.2] := by
    rw [turn]
    simp only [errandAnswered, found]
    cases becomes with
    | propose | confirm => rfl
    | _ => cases success
  rw [effects, List.mem_singleton, Effect.finish.injEq]
  constructor
  · exact fun same => same.2.symm
  · exact fun same => ⟨rfl, same.symm⟩

end

/-- After every run in which no two proposals have the same id, whatever calls of whatever clients
have been under way meanwhile, the proposals that are tracked are those that were accepted and that
nothing has ended since, in order; the node is safe when there are none, locked or not. An event
does something to them just if it grants a call that asks for that or is one of the session, and a
call that does so succeeds just if it is granted. What has been retired is not there to be retired
again. -/
theorem proposals_eq_standing (options : KeepAliveOptions) (world : Surroundings)
    (events : List Event) (distinct : (acceptedIds ((fresh options world).deeds events)).Nodup) :
    let n := ((fresh options world).run events).1
    let deeds := (fresh options world).deeds events
    n.session.proposals.supplies = standing .supply deeds ∧
    n.session.proposals.demands = standing .demand deeds ∧
    n.session.proposals.pending =
      ((standing .supply deeds).length, (standing .demand deeds).length) ∧
    (n.session.proposals.isSafe ↔ standing .supply deeds = [] ∧ standing .demand deeds = []) ∧
    (∀ event deed, n.deed? event = some deed ↔ Does (fresh options world) events event deed) ∧
    (∀ event job number operation c request reply outcome,
      (fresh options world).Concludes events event job number operation c request reply →
      operation.success? request = some outcome →
      (.finish job outcome ∈ (n.step event).2 ↔ granted reply)) ∧
    ∀ before event after id, events = before ++ event :: after →
      ((fresh options world).run before).1.deed? event = some (.retired id) →
      ((fresh options world).run before).1.session.proposals.tracks id →
      n.session.proposals.tracks id = false := by
  intro n deeds
  have faithful : Faithful n.session.proposals deeds := faithful_run options world distinct
  refine ⟨faithful.supplies, faithful.demands, faithful.pending_eq, faithful.isSafe_iff,
    fun event deed => deed?_eq_some_iff options world,
    fun event job number operation c request reply outcome concludes success =>
      success_iff options world concludes success, ?_⟩
  rintro before event after id rfl retires tracked
  have split : deeds = (fresh options world).deeds before ++ .retired id ::
      (((fresh options world).run before).1.step event).1.deeds after := by
    simp [deeds, deeds_append, Node.deeds, retires]
  rw [show (fresh options world).deeds (before ++ event :: after) = _ from split] at distinct
  rw [split] at faithful
  have earlier := (List.nodup_append.mp (acceptedIds_append _ _ ▸ distinct)).1
  exact not_tracks_of_retired distinct ((faithful_run options world earlier).mem_acceptedIds tracked)
    faithful

/-- Two proposals are made by one client. The one made last is accepted first. -/
def proposedTwice : List Event :=
  Session.firstHeartbeat.map .session ++
    [.connect 1 0 10 "" Client.standardPatience,
      .operate 2 0 (.propose .supply (.broadcast "ride" "")),
      .operate 3 0 (.propose .demand (.broadcast "lift" "")),
      .answer 3 (.ok (.ack .done)), .answer 2 (.ok (.ack .done))]

/-- The node is locked, and the user consents to a match that came from the first proposal. -/
def consenting : List Event := [.session .lock, .operate 4 0 (.confirm 99 (some 28674))]

def consented : List Event := proposedTwice ++ consenting ++ [.answer 4 (.ok (.ack .done))]

/-- Once the consent is acknowledged, the second proposal is all that is left. -/
theorem proposals_eq_standing_after_consent :
    (acceptedIds ((fresh .standard Session.stillWorld).deeds consented)).Nodup ∧
      ((fresh .standard Session.stillWorld).run consented).1.session.proposals.supplies =
        standing .supply ((fresh .standard Session.stillWorld).deeds consented) ∧
      ((fresh .standard Session.stillWorld).run consented).1.session.proposals.demands =
        standing .demand ((fresh .standard Session.stillWorld).deeds consented) ∧
      ((fresh .standard Session.stillWorld).run consented).1.session.proposals.pending = (0, 1) ∧
      ((fresh .standard Session.stillWorld).run consented).1.session.proposals.tracks 28674 =
        false := by
  have distinct : (acceptedIds ((fresh .standard Session.stillWorld).deeds consented)).Nodup := by
    decide
  obtain ⟨supplies, demands, -, -, -, -, retired⟩ :=
    proposals_eq_standing .standard Session.stillWorld consented distinct
  refine ⟨distinct, supplies, demands, by decide, ?_⟩
  apply retired (proposedTwice ++ consenting) (.answer 4 (.ok (.ack .done))) [] 28674 rfl
  · decide
  · decide

end Node

end ExchangeNode
