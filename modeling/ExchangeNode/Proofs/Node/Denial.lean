import ExchangeNode.Proofs.Node.Closing
import ExchangeNode.Proofs.Session.Sequential

/-!
# Clients of a node that has lost its number

A client is opened with an id, so under a number. A registration that fails takes the number away
and leaves the client behind. From then on an operation that takes an id of its own is denied, and
so is one on a bus where none is open. The others ask for nothing that the node has lost, and still
call the exchange.

`operate_without_number` says so for every operation, and `subscription_without_number` shows one
that should have been denied: nothing of the lost identity is meant to be used any longer.
-/

namespace ExchangeNode

namespace Operation

/-- Whether an operation takes an id of its own. -/
def takesId : Operation → Bool
  | .notify _ _ | .propose _ _ | .select _ | .confirm _ _ | .send _ => true
  | _ => false

/-- Whether an operation is on the open bus. -/
def isOnBus : Operation → Bool
  | .send _ | .closeBus | .subscribeBus => true
  | _ => false

end Operation

namespace Client

variable {c : Client} {ids taken : IdGenerator} {clock : Int} {operation : Operation}
  {request : Request} {pending : Pending}

theorem node_of_begin (begins : c.begin ids clock operation = .ok (request, pending, taken)) :
    taken.node = ids.node := by
  cases operation with
  | notify | propose | select | confirm =>
    simp only [begin, bind, Except.bind] at begins
    split at begins
    · cases begins
    next issued =>
      cases begins
      exact IdGenerator.node_of_generate issued
  | send =>
    simp only [begin, bind, Except.bind] at begins
    split at begins
    · cases begins
    · split at begins
      · cases begins
      next issued =>
        cases begins
        exact IdGenerator.node_of_generate issued
  | closeBus | subscribeBus =>
    simp only [begin, bind, Except.bind] at begins
    split at begins
    · cases begins
    · cases begins
      rfl
  | createBus | busState | subscribe =>
    cases begins
    rfl

theorem begin_of_closed (ids : IdGenerator) (clock : Int) (onBus : operation.isOnBus)
    (closed : c.bus = 0) : c.begin ids clock operation = .error .busNotOpen := by
  cases operation with
  | send | closeBus => exact begin_of_no_bus ids clock rfl closed
  | subscribeBus =>
    have none : c.openBus = .error .busNotOpen := if_pos closed
    simp only [begin, none]
    rfl
  | _ => cases onBus

theorem begin_of_takesId (unseeded : ids.node = none) (clock : Int) (takes : operation.takesId)
    (isOpen : operation.isOnBus → c.bus ≠ 0) :
    c.begin ids clock operation = .error .notRegistered := by
  have denied : ids.generate clock = .error .notRegistered := by
    simp only [IdGenerator.generate, unseeded]
  cases operation with
  | notify | propose | select | confirm =>
    simp only [begin, denied]
    rfl
  | send =>
    have names : c.openBus = .ok ⟨c.id, c.bus, ""⟩ := if_neg (isOpen rfl)
    simp only [begin, names, denied]
    rfl
  | _ => cases takes

/-- What takes no id and finds its bus open begins whether or not ids are issued. -/
theorem begin_of_free (ids : IdGenerator) (clock : Int) (free : operation.takesId = false)
    (isOpen : operation.isOnBus → c.bus ≠ 0) :
    ∃ request pending, c.begin ids clock operation = .ok (request, pending, ids) := by
  cases operation with
  | createBus | busState | subscribe => exact ⟨_, _, rfl⟩
  | closeBus | subscribeBus =>
    have names : c.openBus = .ok ⟨c.id, c.bus, ""⟩ := if_neg (isOpen rfl)
    simp only [begin, names]
    exact ⟨_, _, rfl⟩
  | _ => cases free

end Client

/-! ### Where the number goes -/

/-- Only a registration that fails takes the number of the generator away. -/
theorem Session.forgets_of_unseeded {s : Session} {event : Session.Event} {turn : Session.Turn}
    (course : Course s event turn) (seeded : s.ids.node ≠ none)
    (unseeded : turn.1.ids.node = none) :
    ∃ job wait directory registration reply error,
      s.jobHears? event = some (job, .registering wait directory registration, reply) ∧
        .finish job (.failed error) ∈ turn.2 := by
  cases course with
  | forgets hears => exact ⟨_, _, _, _, _, _, hears, List.mem_singleton_self _⟩
  | adopts _ _ accepted => exact absurd unseeded (node_reseed_of_accepts accepted _)
  | renews | reseeds => exact absurd unseeded (node_reseed seeded)
  | issues ids _ _ same => exact absurd (same.symm.trans unseeded) seeded
  | _ => exact absurd unseeded seeded

namespace Node

/-- A registration of the session fails. -/
def Refuses (n : Node) (event : Event) : Prop :=
  ∃ seen job wait directory registration reply error, n.seen? event = some seen ∧
    n.session.jobHears? seen = some (job, .registering wait directory registration, reply) ∧
    .finish job (.failed error) ∈ (n.step event).2

variable {n : Node} {event : Event} {number : Nat}

theorem node_connect {job client : Nat} {channelType : UInt32} {argument : String}
    {patience : Duration} :
    (n.connect job client channelType argument patience).1.session.ids.node =
      n.session.ids.node := by
  simp only [connect]
  split
  next issued => exact IdGenerator.node_of_generate issued
  next => rfl

/-- What does not reach the session leaves the number as it is. -/
theorem node_of_unseen (unseen : n.seen? event = none) :
    (n.step event).1.session.ids.node = n.session.ids.node := by
  have answered : ∀ job errand reply,
      (n.errandAnswered job errand reply).1.session.ids = n.session.ids := by
    intro job errand reply
    simp only [errandAnswered]
    split
    · rfl
    · rfl
    · split
      · rfl
      · split
        · rfl
        · rfl
        · rfl
  cases event with
  | session | abandon => cases unseen
  | connect => exact node_connect
  | dialed job result =>
    simp only [step, dialed]
    split
    · exact node_connect
    · rfl
    next result _ _ found failed =>
      simp only [seen?] at unseen
      split at unseen
      next dialing =>
        cases result with
        | ok => exact (found _ _ _ _ dialing rfl).elim
        | error => exact (failed _ _ _ _ _ dialing rfl).elim
      · cases unseen
  | operate job client operation =>
    simp only [step, operate]
    split
    · rfl
    · split
      · rfl
      next begins => exact Client.node_of_begin begins
  | answer call reply =>
    simp only [step, answer]
    split
    · rw [answered]
    next free => simp [seen?, free] at unseen
  | timeout call =>
    simp only [step, timeout]
    split
    · split
      · rw [answered]
      · rfl
    next free => simp [seen?, free] at unseen
  | item job item =>
    simp only [step, Node.item]
    split
    · split
      · rfl
      · rfl
      · split
        · rfl
        · rfl
    · rfl
  | heed job =>
    simp only [step, heed]
    split
    · split
      · rfl
      · rfl
    · rfl
  | elapse millis =>
    simp only [step, elapse, Session.elapse]
    split
    · split
      · rfl
      · rfl
    · rfl
  | dial | signal => rfl

theorem refuses_of_unseeded (seeded : n.session.ids.node ≠ none)
    (unseeded : (n.step event).1.session.ids.node = none) : n.Refuses event := by
  have course := n.step_course event
  generalize turn : n.step event = after at course unseeded
  cases course with
  | session errands sees =>
    obtain ⟨job, wait, directory, registration, reply, error, hears, fails⟩ :=
      Session.forgets_of_unseeded (n.session.step_course _) seeded unseeded
    exact ⟨_, job, wait, directory, registration, reply, error, sees, hears,
      by rw [turn]; exact fails⟩
  | takes _ _ _ _ unseen | concludes _ _ _ unseen =>
    have same := node_of_unseen unseen
    rw [turn] at same
    exact absurd (same.symm.trans unseeded) seeded

/-- A node without a number opens no clients. -/
theorem held_of_unseeded (unseeded : n.session.ids.node = none)
    (held : ((n.step event).1.clients.get? number).isSome) : (n.clients.get? number).isSome := by
  have denied (job client : Nat) (channelType : UInt32) (argument : String) (patience : Duration) :
      (n.connect job client channelType argument patience).1.clients = n.clients := by
    simp only [connect, IdGenerator.generate, unseeded]
    rfl
  by_cases own : ∃ job pending wait switch reply,
      n.errandHears? event = some (job, .asking number pending wait switch, reply)
  · obtain ⟨job, pending, wait, switch, reply, hears⟩ := own
    obtain ⟨-, -, -, turn⟩ := errandHears?_spec hears
    cases found : n.clients.get? number with
    | none => simp [turn, errandAnswered, found] at held
    | some => rfl
  · cases event with
    | connect => rwa [step, denied] at held
    | dialed job result =>
      simp only [step, dialed] at held
      split at held
      · rwa [denied] at held
      · exact held
      · exact held
    | _ =>
      rw [client_of_others (by simp [opens?]) fun job pending wait switch reply hears =>
        own ⟨job, pending, wait, switch, reply, hears⟩] at held
      exact held

/-- Where a node has a client and no number, it has lost the number since. -/
theorem exists_refusal (options : KeepAliveOptions) (world : Surroundings) (events : List Event)
    (held : (((fresh options world).run events).1.clients.get? number).isSome)
    (unseeded : ((fresh options world).run events).1.session.ids.node = none) :
    ∃ earlier refused later, events = earlier ++ refused :: later ∧
      ((fresh options world).run earlier).1.session.ids.node ≠ none ∧
      ((fresh options world).run earlier).1.Refuses refused := by
  -- From the last event back to the one that took the number away.
  induction events using List.reverseRecOn with
  | nil => cases held
  | append_singleton past event ih =>
    rw [run_concat] at held unseeded
    by_cases seeded : ((fresh options world).run past).1.session.ids.node = none
    · obtain ⟨earlier, refused, later, rfl, before⟩ := ih (held_of_unseeded seeded held) seeded
      exact ⟨earlier, refused, later ++ [event], by simp, before⟩
    · exact ⟨past, event, [], rfl, seeded, refuses_of_unseeded seeded unseeded⟩

/-- A client of a node without a number was opened under one, which a failed registration has taken
away. Its operations are denied if they are on a bus and it has none open, or else if they take an
id. All others make their call. -/
theorem operate_without_number (options : KeepAliveOptions) (world : Surroundings)
    (events : List Event) (number : Nat) (c : Client)
    (found : ((fresh options world).run events).1.clients.get? number = some c)
    (unseeded : ((fresh options world).run events).1.session.ids.node = none) :
    (∃ earlier refused later, events = earlier ++ refused :: later ∧
      ((fresh options world).run earlier).1.session.ids.node ≠ none ∧
      ((fresh options world).run earlier).1.Refuses refused) ∧
    let n := ((fresh options world).run events).1
    ∀ job operation,
      (operation.isOnBus → c.bus = 0 →
        n.step (.operate job number operation) = n.finish job (.failed .busNotOpen)) ∧
      (operation.takesId → (operation.isOnBus → c.bus ≠ 0) →
        n.step (.operate job number operation) = n.finish job (.failed .notRegistered)) ∧
      (operation.takesId = false → (operation.isOnBus → c.bus ≠ 0) →
        ∃ request pending, operation.Becomes c.bus request pending ∧
          (n.step (.operate job number operation)).2 = [.call n.session.nextCall request]) := by
  refine ⟨exists_refusal options world events (Option.isSome_of_mem found) unseeded, ?_⟩
  intro n job operation
  refine ⟨?_, ?_, ?_⟩
  · intro onBus closed
    simp only [n, step, operate, found, Client.begin_of_closed _ _ onBus closed]
  · intro takes isOpen
    simp only [n, step, operate, found, Client.begin_of_takesId unseeded _ takes isOpen]
  · intro free isOpen
    obtain ⟨request, pending, begins⟩ :=
      Client.begin_of_free n.session.ids n.session.world.clock free isOpen
    refine ⟨request, pending, Client.becomes_of_begin begins, ?_⟩
    simp only [n, step, operate, found] at begins ⊢
    simp only [begins]

/-- A client is opened, and then the directory is lost in the middle of a second registration. -/
def numberLost : List Event :=
  let register (job : Nat) : Event :=
    .session (.register job "127.0.0.1:9000" (.ofNode "sensor-1" [10] none))
  [register 0, .answer 0 (Session.grant 7 1007), .session (.wake 0),
    .connect 1 0 10 "" Client.standardPatience, register 2, .session (.heed 0),
    .session (.proceed 2), .answer 1 (.error .connectionClosed)]

theorem operate_after_numberLost :
    let n := ((fresh .standard Session.stillWorld).run numberLost).1
    let c : Client := .opened 28673 10 "" Client.standardPatience
    (n.clients.get? 0 = some c ∧ n.session.ids.node = none) ∧
      (∃ earlier refused later, numberLost = earlier ++ refused :: later ∧
        ((fresh .standard Session.stillWorld).run earlier).1.session.ids.node ≠ none ∧
        ((fresh .standard Session.stillWorld).run earlier).1.Refuses refused) ∧
      n.step (.operate 3 0 .closeBus) = n.finish 3 (.failed .busNotOpen) ∧
      n.step (.operate 3 0 (.confirm 99 none)) = n.finish 3 (.failed .notRegistered) ∧
      ∃ request pending, (Operation.busState ⟨5, 99, ""⟩).Becomes c.bus request pending ∧
        (n.step (.operate 3 0 (.busState ⟨5, 99, ""⟩))).2 = [.call 2 request] := by
  intro n c
  have found : n.clients.get? 0 = some c := by decide
  have unseeded : n.session.ids.node = none := by decide
  obtain ⟨refused, operates⟩ :=
    operate_without_number .standard Session.stillWorld numberLost 0 c found unseeded
  exact ⟨⟨found, unseeded⟩, refused, (operates 3 .closeBus).1 rfl rfl,
    (operates 3 (.confirm 99 none)).2.1 rfl nofun,
    (operates 3 (.busState ⟨5, 99, ""⟩)).2.2 rfl nofun⟩

/-- The client subscribes to demands as if the node still had its number. -/
theorem subscription_without_number :
    let n := ((fresh .standard Session.stillWorld).run numberLost).1
    n.session.ids.node = none ∧ (n.clients.get? 0).isSome ∧
      (n.step (.operate 3 0 (.subscribe .demand))).2 =
        [.call 2 (.subscribe .demand ⟨28673, 10, ""⟩)] := by
  decide

end Node

end ExchangeNode
