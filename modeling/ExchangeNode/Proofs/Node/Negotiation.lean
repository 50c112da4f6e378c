import ExchangeNode.Proofs.Node.Origin
import ExchangeNode.Proofs.Node.Ownership

/-!
# Negotiating is done as a whole or not at all

To notify, propose, select or confirm takes one call. Until its answer comes an operation has
changed nothing but the generator that its ids are taken from, and if the call is refused, fails or
runs out of time it never does. If it succeeds, the exchange has got one record, and the draft takes
the id of that record.

`negotiation_is_whole` says so of an operation of any client, whatever else goes on meanwhile.
-/

namespace ExchangeNode

namespace Operation

/-- Whether an operation is a step of a negotiation. -/
def negotiates : Operation → Bool
  | .notify _ _ | .propose _ _ | .select _ | .confirm _ _ => true
  | _ => false

/-- The draft that an operation makes its record from. -/
def draft? : Operation → Option Draft
  | .notify _ draft | .propose _ draft => some draft
  | _ => none

/-- An operation has sent one record: it bears the id, comes from the client, and is for everyone or
for the target of the draft. -/
def Sent (operation : Operation) (c : Client) (id : UInt64) (requests : List Request) : Prop :=
  match operation with
  | .notify side _ => ∃ advert : Advert side, requests = [.notify advert] ∧
      advert.id = id ∧ advert.sender = c.id ∧ advert.target = 0
  | .propose side draft => ∃ advert : Advert side, requests = [.propose advert] ∧
      advert.id = id ∧ advert.sender = c.id ∧ advert.target = draft.target
  | _ => False

end Operation

/-- The id that an operation succeeds with, if that is known when it begins. -/
def Pending.issues? : Pending → Option UInt64
  | .notified _ id => some id
  | .proposed advert => some advert.id
  | _ => none

namespace Client

variable {c : Client} {ids taken : IdGenerator} {clock : Int} {operation : Operation}
  {request : Request} {pending : Pending} {bus : UInt64}

/-- The record that is made from a draft goes out under the id that the operation succeeds with. -/
theorem sent_of_begin {draft : Draft} (drafts : operation.draft? = some draft)
    (begins : c.begin ids clock operation = .ok (request, pending, taken)) :
    ∃ id, pending.issues? = some id ∧ operation.Sent c id [request] := by
  cases operation with
  | notify side | propose side =>
    simp only [begin, bind, Except.bind] at begins
    split at begins
    · cases begins
    next id _ =>
      cases begins
      exact ⟨_, rfl, _, rfl, rfl, rfl, rfl⟩
  | _ => cases drafts

theorem conclude_of_issues {id : UInt64} (issues : pending.issues? = some id) (c : Client)
    (p : Proposals) (reply : Option Reply) :
    (∃ e, (c.conclude p pending reply).2.2 = .failed e) ∨
      (c.conclude p pending reply).2.2 = .issued id := by
  match reply with
  | none | some (.error _) => exact .inl ⟨_, rfl⟩
  | some (.ok response) =>
    cases pending with
    | notified | proposed =>
      cases issues
      cases response with
      | ack ack =>
        obtain ⟨grants, err⟩ := ack
        cases grants with
        | false => exact .inl ⟨_, rfl⟩
        | true => exact .inr rfl
      | _ => exact .inl ⟨_, rfl⟩
    | _ => cases issues

/-- The end of a negotiating call: it has failed and changed nothing, or succeeded. -/
theorem conclude_of_negotiates (becomes : operation.Becomes bus request pending)
    (negotiates : operation.negotiates) (c : Client) (p : Proposals) (reply : Option Reply) :
    (∃ e, c.conclude p pending reply = (c, p, .failed e)) ∨
      ∀ e, (c.conclude p pending reply).2.2 ≠ .failed e := by
  match reply with
  | none =>
    cases becomes with
    | notify | propose | select | confirm => exact .inl ⟨_, rfl⟩
    | _ => cases negotiates
  | some (.error e) =>
    cases becomes with
    | notify | propose | select | confirm => exact .inl ⟨_, rfl⟩
    | _ => cases negotiates
  | some (.ok response) =>
    cases becomes with
    | notify | propose | confirm =>
      cases response with
      | ack ack =>
        obtain ⟨grants, err⟩ := ack
        cases grants with
        | false => exact .inl ⟨_, rfl⟩
        | true => exact .inr nofun
      | _ => exact .inl ⟨_, rfl⟩
    | @select side =>
      cases side with
      | supply | demand =>
        cases response with
        | confirmation confirmation =>
          obtain ⟨grants, bus, err⟩ := confirmation
          cases grants with
          | false => exact .inl ⟨_, rfl⟩
          | true => exact .inr nofun
        | _ => exact .inl ⟨_, rfl⟩
    | _ => cases negotiates

end Client

namespace Node

/-! ### Turns of a job -/

/-- The requests among the effects of a turn. -/
def requests (effects : List Effect) : List Request :=
  effects.filterMap fun
    | .call _ request => some request
    | _ => none

/-- Whether a turn is a job's own: the job begins with the event, or hears the end of its call. -/
def isTurnOf (n : Node) (job : Nat) (event : Event) : Bool :=
  event.job? = some job || (n.errandHears? event).any (·.1 = job)

/-- All requests that a job makes in a run. -/
def requestsOf (n : Node) (job : Nat) : List Event → List Request
  | [] => []
  | event :: rest =>
    (if n.isTurnOf job event then requests (n.step event).2 else []) ++
      (n.step event).1.requestsOf job rest

/-- Nothing has changed but the generator of ids, and what is under way: neither the proposals nor
any client. -/
structure Spares (n m : Node) : Prop where
  session : ∃ ids nextCall, m.session = { n.session with ids, nextCall }
  clients : ∀ number, m.clients.get? number = n.clients.get? number

variable {n : Node} {event : Event} {job number : Nat} {operation : Operation} {c : Client}
  {request : Request} {pending : Pending} {wait : Wait} {switch : StopSwitch} {bus : UInt64}

theorem outcomes_append (job : Nat) (first more : List Effect) :
    outcomes job (first ++ more) = outcomes job first ++ outcomes job more :=
  List.filterMap_append

/-- A turn is a job's own if the job waits and hears the end of its call. -/
theorem isTurnOf_iff (unnamed : event.job? ≠ some job) :
    n.isTurnOf job event ↔ ∃ errand reply, n.errandHears? event = some (job, errand, reply) := by
  simp only [isTurnOf, unnamed, decide_false, Bool.false_or, Option.any_eq_true]
  constructor
  · rintro ⟨⟨other, errand, reply⟩, hears, own⟩
    obtain rfl : other = job := by simpa using own
    exact ⟨errand, reply, hears⟩
  · rintro ⟨errand, reply, hears⟩
    exact ⟨_, hears, by simp⟩

/-- Nothing is left of an operation that has ended. -/
theorem ended_run (stranger : n.session.jobs.get? job = none) (ended : n.errands.get? job = none)
    {events : List Event} (own : ∀ event ∈ events, event.job? ≠ some job) :
    n.requestsOf job events = [] ∧ outcomes job (n.run events).2 = [] ∧
      (n.run events).1.errands.get? job = none := by
  induction events generalizing n with
  | nil => exact ⟨rfl, rfl, ended⟩
  | cons event rest ih =>
    have unnamed := own event List.mem_cons_self
    obtain ⟨still, quiet⟩ := rests stranger unnamed ended
    obtain ⟨silent, finished, left⟩ := ih (stranger_kept stranger unnamed) still
      fun later member => own later (List.mem_cons_of_mem event member)
    have passive : ¬ n.isTurnOf job event := by
      rw [isTurnOf_iff unnamed]
      rintro ⟨errand, reply, hears⟩
      obtain ⟨-, -, -, -, -, found⟩ := asking_of_hears hears
      rw [ended] at found
      cases found
    rw [requestsOf, if_neg passive, silent, run_cons, outcomes_append, finished,
      outcomes_of_quiet quiet]
    exact ⟨rfl, rfl, left⟩

/-- The turn in which an operation that receives nothing hears the end of its call. -/
theorem concluding_turn {reply : Option Reply} (plain : pending.receives = false)
    (hears : n.errandHears? event = some (job, .asking number pending wait switch, reply))
    (found : n.clients.get? number = some c) :
    n.step event =
      ({ session :=
           { n.session with proposals := (c.conclude n.session.proposals pending reply).2.1 }
         clients := n.clients.set number (c.conclude n.session.proposals pending reply).1
         errands := n.errands.erase job },
        [.finish job (c.conclude n.session.proposals pending reply).2.2]) := by
  obtain ⟨-, -, -, turn⟩ := errandHears?_spec hears
  rcases concludes : c.conclude n.session.proposals pending reply with ⟨c', proposals, outcome⟩
  rw [turn, errandAnswered_eq found concludes]
  simp [plain, finish]

/-- Without its client an operation hears nothing. -/
theorem step_of_unheld {reply : Option Reply}
    (hears : n.errandHears? event = some (job, .asking number pending wait switch, reply))
    (unheld : n.clients.get? number = none) : n.step event = (n, []) := by
  obtain ⟨-, -, -, turn⟩ := errandHears?_spec hears
  simp only [turn, errandAnswered, unheld]

/-- What hears of a call under the number of an operation is that operation. -/
theorem hears_of_isTurnOf (underway : Underway job number pending switch n)
    (unnamed : event.job? ≠ some job) (turns : n.isTurnOf job event) :
    ∃ wait reply, n.errandHears? event = some (job, .asking number pending wait switch, reply) := by
  obtain ⟨errand, reply, hears⟩ := (isTurnOf_iff unnamed).mp turns
  obtain ⟨other, p, wait, given, rfl, found⟩ := asking_of_hears hears
  obtain ⟨wait, same⟩ | ⟨-, same⟩ := underway.errand _ found
  · exact ⟨wait, reply, same ▸ hears⟩
  · cases same

/-- While it waits and after that, an operation makes no request, and it ends once at most, with
what the end of its call comes to. -/
theorem asking_run (plain : pending.receives = false) (stranger : n.session.jobs.get? job = none)
    (asking : n.errands.get? job = some (.asking number pending wait switch)) {events : List Event}
    (own : ∀ event ∈ events, event.job? ≠ some job) :
    n.requestsOf job events = [] ∧
      (outcomes job (n.run events).2 = [] ∨
        ∃ c p reply,
          outcomes job (n.run events).2 = [(Client.conclude c p pending reply).2.2]) := by
  -- It waits on from event to event; once it has heard its answer, `ended_run` takes over.
  induction events generalizing n switch with
  | nil => exact ⟨rfl, .inl rfl⟩
  | cons event rest ih =>
    have unnamed := own event List.mem_cons_self
    have kept := stranger_kept stranger unnamed
    have others : ∀ later ∈ rest, later.job? ≠ some job :=
      fun later member => own later (List.mem_cons_of_mem event member)
    rw [requestsOf, run_cons, outcomes_append]
    by_cases turns : n.isTurnOf job event
    · obtain ⟨wait', reply, hears⟩ :=
        hears_of_isTurnOf (.of_asking stranger asking) unnamed turns
      rw [if_pos turns]
      cases found : n.clients.get? number with
      | none =>
        rw [step_of_unheld hears found]
        exact ih stranger asking others
      | some c =>
        have turn := concluding_turn plain hears found
        have ended : (n.step event).1.errands.get? job = none := by simp [turn]
        obtain ⟨silent, finished, -⟩ := ended_run kept ended others
        rw [silent, finished]
        simp only [turn]
        exact ⟨rfl, .inr ⟨c, n.session.proposals, reply, by simp [outcomes]⟩⟩
    · have unheard : ∀ errand reply, n.errandHears? event ≠ some (job, errand, reply) :=
        fun errand reply hears => turns ((isTurnOf_iff unnamed).mpr ⟨errand, reply, hears⟩)
      obtain ⟨still, quiet⟩ := asks_on stranger unnamed asking unheard
      rw [if_neg turns, outcomes_of_quiet quiet]
      exact ih kept still others

/-! ### From the beginning to the end -/

theorem plain_of_becomes (becomes : operation.Becomes bus request pending)
    (negotiates : operation.negotiates) : pending.receives = false := by
  cases becomes with
  | notify | propose | select | confirm => rfl
  | _ => cases negotiates

/-- To begin an operation changes nothing but the generator and what is under way. -/
theorem spares_of_operate (n : Node) (job number : Nat) (operation : Operation) :
    Spares n (n.step (.operate job number operation)).1 := by
  simp only [step, operate]
  split
  · exact ⟨⟨n.session.ids, n.session.nextCall, rfl⟩, fun _ => rfl⟩
  · split
    · exact ⟨⟨n.session.ids, n.session.nextCall, rfl⟩, fun _ => rfl⟩
    · exact ⟨⟨_, _, rfl⟩, fun _ => rfl⟩

/-- A negotiating operation that fails has changed nothing. -/
theorem spares_of_failure {reply : Option Reply}
    (becomes : operation.Becomes bus request pending) (negotiates : operation.negotiates)
    (hears : n.errandHears? event = some (job, .asking number pending wait switch, reply))
    (fails : ∀ outcome ∈ outcomes job (n.step event).2, ∃ e, outcome = .failed e) :
    Spares n (n.step event).1 := by
  cases found : n.clients.get? number with
  | none =>
    rw [step_of_unheld hears found]
    exact ⟨⟨n.session.ids, n.session.nextCall, rfl⟩, fun _ => rfl⟩
  | some c =>
    have turn := concluding_turn (plain_of_becomes becomes negotiates) hears found
    obtain ⟨e, failed⟩ | succeeds :=
      Client.conclude_of_negotiates becomes negotiates c n.session.proposals reply
    · rw [turn, failed]
      refine ⟨⟨n.session.ids, n.session.nextCall, rfl⟩, fun other => ?_⟩
      rw [Table.get?_set]
      split
      next same => rw [same, found]
      next => rfl
    · obtain ⟨e, failed⟩ := fails (c.conclude n.session.proposals pending reply).2.2
        (by simp [turn, outcomes])
      exact absurd failed (succeeds e)

theorem isTurnOf_operate (n : Node) (job number : Nat) (operation : Operation) :
    n.isTurnOf job (.operate job number operation) := by simp [isTurnOf, Event.job?]

/-- An operation that cannot begin ends at once. -/
theorem unbegun_run {e : NodeError} (found : n.clients.get? number = some c)
    (fails : c.begin n.session.ids n.session.world.clock operation = .error e)
    (stranger : n.session.jobs.get? job = none) {events : List Event}
    (own : ∀ event ∈ events, event.job? ≠ some job) :
    n.requestsOf job (.operate job number operation :: events) = [] ∧
      outcomes job (n.run (.operate job number operation :: events)).2 = [.failed e] ∧
      (n.run (.operate job number operation :: events)).1.errands.get? job = none := by
  have turn : n.step (.operate job number operation) = n.finish job (.failed e) := by
    simp only [step, operate, found, fails]
  have kept : (n.finish job (.failed e)).1.session.jobs.get? job = none := stranger
  obtain ⟨silent, finished, ended⟩ := ended_run kept (by simp [finish]) own
  rw [requestsOf, if_pos (isTurnOf_operate n job number operation), run_cons, outcomes_append, turn,
    silent, finished]
  exact ⟨by simp [finish, requests], by simp [finish, outcomes], ended⟩

/-- A negotiating operation fails at once, or makes its call and ends with what that comes to. -/
theorem negotiation_course (negotiates : operation.negotiates)
    (found : n.clients.get? number = some c) (stranger : n.session.jobs.get? job = none)
    {events : List Event} (own : ∀ event ∈ events, event.job? ≠ some job) :
    (n.requestsOf job (.operate job number operation :: events) = [] ∧
        ∃ e, outcomes job (n.run (.operate job number operation :: events)).2 = [.failed e]) ∨
      ∃ request pending ids,
        c.begin n.session.ids n.session.world.clock operation = .ok (request, pending, ids) ∧
        n.requestsOf job (.operate job number operation :: events) = [request] ∧
        (outcomes job (n.run (.operate job number operation :: events)).2 = [] ∨
          ∃ c p reply, outcomes job (n.run (.operate job number operation :: events)).2 =
            [(Client.conclude c p pending reply).2.2]) := by
  cases begins : c.begin n.session.ids n.session.world.clock operation with
  | error e =>
    obtain ⟨silent, finished, -⟩ := unbegun_run found begins stranger own
    exact .inl ⟨silent, e, finished⟩
  | ok begun =>
    obtain ⟨request, pending, ids⟩ := begun
    have plain := plain_of_becomes (Client.becomes_of_begin begins) negotiates
    have turn : n.step (.operate job number operation) =
        ({ n with
            session := { n.session with ids, nextCall := n.session.nextCall + 1 }
            errands := n.errands.set job (.asking number pending
              ⟨n.session.nextCall, n.session.world.now + c.patience.millis⟩ .off) },
          [.call n.session.nextCall request]) := by
      simp only [step, operate, found, begins]
    obtain ⟨silent, ends⟩ := asking_run (n := (n.step (.operate job number operation)).1) plain
      (by rw [turn]; exact stranger) (by rw [turn, Table.get?_set, if_pos rfl]) own
    have quiet : outcomes job (n.step (.operate job number operation)).2 = [] := by
      simp [turn, outcomes]
    rw [requestsOf, if_pos (isTurnOf_operate n job number operation), run_cons, outcomes_append,
      silent, quiet]
    exact .inr ⟨request, pending, ids, rfl, by simp [turn, requests], ends⟩

/-- A turn of a negotiating operation that does not bring it to a success changes nothing else. -/
theorem spares_of_turn (negotiates : operation.negotiates)
    (found : n.clients.get? number = some c) (stranger : n.session.jobs.get? job = none)
    (new : n.errands.get? job = none) {before after : List Event}
    (own : ∀ other ∈ before ++ event :: after, other.job? ≠ some job)
    (turns : (n.run (.operate job number operation :: before)).1.isTurnOf job event)
    (fails : ∀ outcome ∈
      outcomes job ((n.run (.operate job number operation :: before)).1.step event).2,
        ∃ e, outcome = .failed e) :
    Spares (n.run (.operate job number operation :: before)).1
      ((n.run (.operate job number operation :: before)).1.step event).1 := by
  have unnamed := own event (by simp)
  have earlier : ∀ event ∈ before, event.job? ≠ some job :=
    fun event member => own event (List.mem_append_left _ member)
  cases begins : c.begin n.session.ids n.session.world.clock operation with
  | error e =>
    -- Nothing is left that could hear of a call.
    obtain ⟨-, -, ended⟩ := unbegun_run found begins stranger earlier
    obtain ⟨errand, reply, hears⟩ := (isTurnOf_iff unnamed).mp turns
    obtain ⟨-, -, -, -, -, waiting⟩ := asking_of_hears hears
    rw [ended] at waiting
    cases waiting
  | ok begun =>
    obtain ⟨request, pending, ids⟩ := begun
    have becomes := Client.becomes_of_begin begins
    have begun : Underway job number pending .off (n.step (.operate job number operation)).1 := by
      apply underway_of_operate stranger new
      intro c' request' p ids' found' begins'
      rw [found] at found'
      cases found'
      rw [begins] at begins'
      cases begins'
      rfl
    have underway := underway_run begun earlier
    obtain ⟨wait, reply, hears⟩ := hears_of_isTurnOf underway unnamed turns
    exact spares_of_failure becomes negotiates hears fails

/-- How an operation with a draft may end, and what becomes of the draft: it fails and leaves the
draft alone, or it has sent one record, and the draft takes the id of that. -/
def EndsDraft (operation : Operation) (c : Client) (requests : List Request) (draft : Draft)
    (outcome : Outcome) : Prop :=
  (∃ e, outcome = .failed e ∧ draft.after outcome = draft) ∨
    ∃ id, outcome = .issued id ∧ draft.after outcome = { draft with id } ∧
      operation.Sent c id requests

/-- Each step of a negotiation makes one call at most and ends at most once. In each of its turns
that does not bring it to a success it leaves the proposals, the buses and the rest of the node as
they are, but for the generator of ids. The draft of a notification or a proposal is changed only by
a success, and then one record was sent, under the id that the draft takes. -/
theorem negotiation_is_whole (n : Node) (job number : Nat) (operation : Operation)
    (negotiates : operation.negotiates) (c : Client) (found : n.clients.get? number = some c)
    (stranger : n.session.jobs.get? job = none) (new : n.errands.get? job = none)
    (events : List Event) (own : ∀ event ∈ events, event.job? ≠ some job) :
    (n.requestsOf job (.operate job number operation :: events)).length ≤ 1 ∧
      (outcomes job (n.run (.operate job number operation :: events)).2).length ≤ 1 ∧
      (∀ before event after, .operate job number operation :: events = before ++ event :: after →
        (n.run before).1.isTurnOf job event →
        (∀ outcome ∈ outcomes job ((n.run before).1.step event).2, ∃ e, outcome = .failed e) →
        Spares (n.run before).1 ((n.run before).1.step event).1) ∧
      ∀ draft, operation.draft? = some draft →
        ∀ outcome ∈ outcomes job (n.run (.operate job number operation :: events)).2,
          EndsDraft operation c (n.requestsOf job (.operate job number operation :: events)) draft
            outcome := by
  refine ⟨?_, ?_, ?_, ?_⟩
  -- Its calls, and how often it ends.
  · obtain ⟨none, -⟩ | ⟨request, pending, ids, begins, one, -⟩ :=
      negotiation_course negotiates found stranger own
    · simp [none]
    · simp [one]
  · obtain ⟨-, e, failed⟩ | ⟨request, pending, ids, begins, -, none | ⟨c', p, reply, one⟩⟩ :=
      negotiation_course negotiates found stranger own
    · simp [failed]
    · simp [none]
    · simp [one]
  -- Its turns: the first one begins it, in any other one it hears of its call.
  · intro before event after split turns fails
    cases before with
    | nil =>
      obtain ⟨rfl, rfl⟩ := List.cons.inj split
      exact spares_of_operate n job number operation
    | cons first before =>
      obtain ⟨rfl, rest⟩ := List.cons.inj split
      have rest : events = before ++ event :: after := rest
      rw [rest] at own
      exact spares_of_turn negotiates found stranger new own turns fails
  -- What becomes of its draft.
  · intro draft drafts outcome ends
    obtain ⟨-, e, failed⟩ | ⟨request, pending, ids, begins, one, concluded⟩ :=
      negotiation_course negotiates found stranger own
    · rw [failed, List.mem_singleton] at ends
      exact .inl ⟨e, ends, by rw [ends]; rfl⟩
    · obtain ⟨id, issues, sent⟩ := Client.sent_of_begin drafts begins
      obtain none | ⟨c', p, reply, concluded⟩ := concluded
      · rw [none] at ends
        cases ends
      · rw [concluded, List.mem_singleton] at ends
        obtain ⟨e, failed⟩ | succeeds := Client.conclude_of_issues issues c' p reply
        · exact .inl ⟨e, ends.trans failed, by rw [ends, failed]; rfl⟩
        · exact .inr ⟨id, ends.trans succeeds, by rw [ends, succeeds]; rfl, one ▸ sent⟩

/-- A node that has opened a client, which is making a proposal. -/
def proposing : Node :=
  ((fresh .standard Session.stillWorld).run
    [.session (.reseed 7), .connect 1 0 10 "" Client.standardPatience,
      .operate 2 0 (.propose .supply (.broadcast "ride" ""))]).1

/-- Another operation of the client; the proposal is accepted before its own record is refused. -/
def refused : List Event :=
  [.operate 3 0 (.notify .demand (.broadcast "lift" "")), .answer 0 (.ok (.ack .done))]

theorem refused_notification_is_whole :
    let refusal : Event := .answer 1 (.ok (.ack ⟨false, "full"⟩))
    let before := (proposing.run refused).1
    proposing.session.jobs.get? 3 = none ∧ proposing.errands.get? 3 = none ∧
      before.session.proposals.isSafe = false ∧ before.isTurnOf 3 refusal ∧
      outcomes 3 (before.step refusal).2 = [.failed (.rejected "full")] ∧
      Spares before (before.step refusal).1 := by
  intro refusal before
  obtain ⟨-, -, spares, -⟩ := negotiation_is_whole proposing 3 0
    (.notify .demand (.broadcast "lift" "")) rfl ⟨⟨28673, 10, ""⟩, 0, Client.standardPatience⟩
    (by decide) (by decide) (by decide) [.answer 0 (.ok (.ack .done)), refusal] (by decide)
  have turns : before.isTurnOf 3 refusal := by decide
  have refused : outcomes 3 (before.step refusal).2 = [.failed (.rejected "full")] := by decide
  refine ⟨by decide, by decide, by decide, turns, refused, ?_⟩
  apply spares Node.refused refusal [] rfl turns
  intro outcome ends
  rw [refused, List.mem_singleton] at ends
  exact ⟨_, ends⟩

end Node

end ExchangeNode
