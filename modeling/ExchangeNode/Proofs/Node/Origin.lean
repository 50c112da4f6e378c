import ExchangeNode.Proofs.Node.Buses
import Mathlib.Data.List.Induction

/-!
# Where calls of clients come from

Every call that a client waits for was made by an operation that began earlier in the run, and what
is left to do after the call belongs to that operation. So what an answer does to a client or to the
proposals can be read off the operation, though only its call is remembered.
-/

namespace ExchangeNode

/-- The call that an operation makes, and what is left to do after it. Where it is about the open
bus, it is about the one given. -/
inductive Operation.Becomes (bus : UInt64) : Operation → Request → Pending → Prop where
  | notify {side draft} {advert : Advert side} :
      Becomes bus (.notify side draft) (.notify advert) (.notified side advert.id)
  | propose {side draft} {advert : Advert side} :
      Becomes bus (.propose side draft) (.propose advert) (.proposed advert)
  | select {side} {advert : Advert side} {target} :
      Becomes bus (.select advert) (.select side target) (.selected side)
  | confirm {id proposal target} :
      Becomes bus (.confirm id proposal) (.confirm target) (.confirmed id proposal)
  | send {message sent} : Becomes bus (.send message) (.send sent) (.sent bus sent.id)
  | closeBus {closed} : Becomes bus .closeBus (.closeBus closed) (.closed bus)
  | createBus {options} : Becomes bus (.createBus options) (.createBus options) .created
  | busState {asked} : Becomes bus (.busState asked) (.busState asked) .reported
  | subscribe {side channel} :
      Becomes bus (.subscribe side) (.subscribe side channel) (.subscribed side)
  | subscribeBus {opened} : Becomes bus .subscribeBus (.subscribeBus opened) .subscribedBus

namespace Client

variable {c : Client} {ids taken : IdGenerator} {clock : Int} {operation : Operation}
  {request : Request} {pending : Pending}

theorem openBus_eq {bus : Bus} (isOpen : c.openBus = .ok bus) : bus = ⟨c.id, c.bus, ""⟩ := by
  simp only [openBus] at isOpen
  split at isOpen
  · cases isOpen
  · exact (Except.ok.inj isOpen).symm

theorem becomes_of_begin
    (begins : c.begin ids clock operation = .ok (request, pending, taken)) :
    operation.Becomes c.bus request pending := by
  cases operation with
  | notify | propose | select | confirm =>
    simp only [begin, bind, Except.bind] at begins
    -- All that can go wrong is that no id is issued.
    split at begins
    · cases begins
    · cases begins
      constructor
  | send message =>
    simp only [begin, bind, Except.bind] at begins
    split at begins
    · cases begins
    next bus isOpen =>
      split at begins
      · cases begins
      · cases begins
        rw [openBus_eq isOpen]
        exact .send
  | closeBus | subscribeBus =>
    simp only [begin, bind, Except.bind] at begins
    split at begins
    · cases begins
    next bus isOpen =>
      cases begins
      rw [openBus_eq isOpen]
      constructor
  | createBus | busState | subscribe =>
    cases begins
    constructor

end Client

namespace Node

/-! ### From the beginning -/

/-- In a run a job has begun an operation of a client, with a call. The client is given as it was
then. -/
def Begun (n : Node) (events : List Event) (job number : Nat) (operation : Operation) (c : Client)
    (call : Nat) (request : Request) : Prop :=
  ∃ earlier during, events = earlier ++ .operate job number operation :: during ∧
    (n.run earlier).1.clients.get? number = some c ∧
    .call call request ∈ ((n.run earlier).1.step (.operate job number operation)).2

variable {n start : Node} {events : List Event} {event : Event} {job number call : Nat}
  {operation : Operation} {c : Client} {request : Request} {pending : Pending} {wait : Wait}
  {switch : StopSwitch} {reply : Option Reply}

theorem begun_concat (begun : start.Begun events job number operation c call request)
    (event : Event) : start.Begun (events ++ [event]) job number operation c call request := by
  obtain ⟨earlier, during, rfl, found, calls⟩ := begun
  exact ⟨earlier, during ++ [event], by simp, found, calls⟩

/-- What is left to do after a call is what an operation of the run has left. -/
def Rooted (start : Node) (events : List Event) (job number : Nat) (pending : Pending)
    (call : Nat) : Prop :=
  ∃ operation c request, start.Begun events job number operation c call request ∧
    operation.Becomes c.bus request pending

theorem rooted_of_asking (options : KeepAliveOptions) (world : Surroundings) (events : List Event)
    (asking : ((fresh options world).run events).1.errands.get? job =
      some (.asking number pending wait switch)) :
    Rooted (fresh options world) events job number pending wait.call := by
  -- From the last event back: the call was waited for before, or the event has made it.
  induction events using List.reverseRecOn generalizing job number pending wait switch with
  | nil => cases asking
  | append_singleton past event ih =>
    have earlier {before : StopSwitch} (found : ((fresh options world).run past).1.errands.get? job =
        some (.asking number pending wait before)) :
        Rooted (fresh options world) (past ++ [event]) job number pending wait.call := by
      obtain ⟨operation, c, request, begun, becomes⟩ := ih found
      exact ⟨operation, c, request, begun_concat begun event, becomes⟩
    rw [run_concat] at asking
    have dealing := ((fresh options world).run past).1.step_dealing event
    generalize turn : ((fresh options world).run past).1.step event = after at dealing asking
    cases dealing with
    | aside _ _ fewer =>
      obtain ⟨before, found⟩ := fewer _ _ _ _ _ asking
      exact earlier found
    | ends _ _ _ _ fewer =>
      obtain ⟨before, found⟩ := fewer _ _ _ _ _ asking
      exact earlier found
    | opens | fails => exact earlier (Table.of_get?_erase asking).2
    | begins c held begins =>
      obtain ⟨rfl, isNew⟩ | ⟨-, before⟩ := Table.of_get?_set asking
      · cases isNew
        refine ⟨_, c, _, ⟨past, [], rfl, held, ?_⟩, Client.becomes_of_begin begins⟩
        rw [turn]
        exact List.mem_singleton_self _
      · exact earlier before

/-- The other way round: from its beginning on, the call belongs to the operation alone. -/
theorem sole_of_begun (options : KeepAliveOptions) (world : Surroundings)
    (begun : (fresh options world).Begun events job number operation c call request) :
    ∃ pending, operation.Becomes c.bus request pending ∧
      Sole job number pending call ((fresh options world).run events).1 := by
  obtain ⟨earlier, during, rfl, found, calls⟩ := begun
  obtain ⟨pending, ids, begins, sole⟩ :=
    sole_of_begins (made_run options world earlier) found calls
  refine ⟨pending, Client.becomes_of_begin begins, ?_⟩
  rw [run_append, run_cons]
  exact sole_run sole during

/-! ### To the end -/

/-- When a call of a client comes to its end, that client is changed, and the proposals. -/
theorem settled_of_hears
    (hears : n.errandHears? event = some (job, .asking number pending wait switch, reply))
    (found : n.clients.get? number = some c) :
    (n.step event).1.clients =
        n.clients.set number (c.conclude n.session.proposals pending reply).1 ∧
      (n.step event).1.session.proposals = (c.conclude n.session.proposals pending reply).2.1 := by
  obtain ⟨-, -, -, turn⟩ := errandHears?_spec hears
  simp only [turn, errandAnswered, found]
  split
  · exact ⟨rfl, rfl⟩
  · exact ⟨rfl, rfl⟩
  · exact ⟨rfl, rfl⟩

/-- After a run, an event brings the call of an operation to its end while that is waited for. -/
def Concludes (start : Node) (before : List Event) (event : Event) (job number : Nat)
    (operation : Operation) (c : Client) (request : Request) (reply : Option Reply) : Prop :=
  ∃ call, start.Begun before job number operation c call request ∧
    event.ended? = some (call, reply) ∧ ((start.run before).1.errandHears? event).isSome

/-- What hears of the end of a call concludes the operation that has made it. -/
theorem concludes_of_hears (options : KeepAliveOptions) (world : Surroundings)
    (hears : ((fresh options world).run events).1.errandHears? event =
      some (job, .asking number pending wait switch, reply)) :
    ∃ operation c request,
      Concludes (fresh options world) events event job number operation c request reply ∧
      operation.Becomes c.bus request pending := by
  obtain ⟨call, ends, waiting, -⟩ := errandHears?_spec hears
  obtain ⟨client, p, wait', switch', same, rfl, asking⟩ := errandWaiting?_spec waiting
  cases same
  obtain ⟨operation, c, request, begun, becomes⟩ := rooted_of_asking options world events asking
  exact ⟨operation, c, request, ⟨wait.call, begun, ends, by simp [hears]⟩, becomes⟩

/-- Where an operation is concluded, its own job hears of that, with what it has left to do. -/
theorem hears_of_concludes (options : KeepAliveOptions) (world : Surroundings)
    (concludes : Concludes (fresh options world) events event job number operation c request
      reply) :
    ∃ pending wait switch, operation.Becomes c.bus request pending ∧
      ((fresh options world).run events).1.errandHears? event =
        some (job, .asking number pending wait switch, reply) ∧
      (((fresh options world).run events).1.clients.get? number).isSome := by
  obtain ⟨call, begun, ends, heard⟩ := concludes
  obtain ⟨pending, becomes, sole⟩ := sole_of_begun options world begun
  obtain ⟨⟨other, errand, given⟩, hears⟩ := Option.isSome_iff_exists.mp heard
  obtain ⟨ended, endsToo, waiting, -⟩ := errandHears?_spec hears
  cases ends.symm.trans endsToo
  obtain ⟨client, p, wait, switch, rfl, same, asking⟩ := errandWaiting?_spec waiting
  obtain ⟨rfl, rfl, rfl⟩ := sole.sole other client p wait switch asking same
  exact ⟨p, wait, switch, becomes, hears, sole.held⟩

end Node

end ExchangeNode
