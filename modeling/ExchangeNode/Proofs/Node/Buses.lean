import ExchangeNode.Proofs.Node.Course
import ExchangeNode.Proofs.Session.Loops

/-!
# Buses and late answers

A client has one bus open at a time, and may send on it, close it and open another one all at once.
An operation reads the bus when it begins and may reset it when its call ends, which can be long
after another bus has been opened. So it names the bus that it read, and resets no other.

`Dealing` lists what a step can do to the clients and their calls. `Sole` follows the call of one
operation from its beginning to its end; `buses_kept_apart` says what both come to.
-/

namespace ExchangeNode

/-! ### Calls over a bus -/

/-- The client and the bus that are named by a message or by a request to close. -/
def Request.onBus? : Request → Option (UInt64 × UInt64)
  | .send message => some (message.sender, message.bus)
  | .closeBus bus => some (bus.client, bus.id)
  | _ => none

theorem Request.onBus?_of_isDirectory {request : Request}
    (isDirectory : request.method.isDirectory) : request.onBus? = none := by
  cases request <;> first | rfl | cases isDirectory

namespace Operation

/-- Whether an operation sends a message or closes the bus. -/
def usesBus : Operation → Bool
  | .send _ | .closeBus => true
  | _ => false

/-- Whether the bus is gone once the call of such an operation has ended: it has been closed, or the
call got lost on the way. The bus outlasts a refusal and a failure that the exchange reports. -/
def endsBus (operation : Operation) : Option Reply → Bool
  | none => true
  | some (.error (.remote _ _)) => false
  | some (.error _) => true
  | some (.ok (.ack ack)) => ack.ok && operation = .closeBus
  | some (.ok _) => true

/-- What is left to do for an operation on a bus. -/
inductive Leaves (bus : UInt64) : Operation → Pending → Prop
  | send {message id} : Leaves bus (.send message) (.sent bus id)
  | close : Leaves bus .closeBus (.closed bus)

end Operation

namespace Client

variable {c : Client} {ids : IdGenerator} {clock : Int} {operation : Operation}
  {begun : Request × Pending × IdGenerator}

/-- Without a bus nothing is sent or closed. -/
theorem begin_of_no_bus (ids : IdGenerator) (clock : Int) (uses : operation.usesBus)
    (noBus : c.bus = 0) : c.begin ids clock operation = .error .busNotOpen := by
  have refused : c.openBus = .error .busNotOpen := if_pos noBus
  cases operation with
  | send | closeBus =>
    simp only [begin, refused]
    rfl
  | _ => cases uses

/-- A message, or a request to close, names the client and the bus that it has open. -/
theorem begin_of_usesBus (uses : operation.usesBus)
    (begins : c.begin ids clock operation = .ok begun) :
    c.bus ≠ 0 ∧ begun.1.onBus? = some (c.id, c.bus) ∧ operation.Leaves c.bus begun.2.1 := by
  have isOpen : c.bus ≠ 0 := by
    intro noBus
    rw [begin_of_no_bus ids clock uses noBus] at begins
    cases begins
  have names : c.openBus = .ok ⟨c.id, c.bus, ""⟩ := if_neg isOpen
  refine ⟨isOpen, ?_⟩
  cases operation with
  | send message =>
    simp only [begin, names, bind, Except.bind] at begins
    -- The message takes an id, which may be refused.
    split at begins
    · cases begins
    · cases begins
      exact ⟨rfl, .send⟩
  | closeBus =>
    simp only [begin, names, bind, Except.bind] at begins
    cases begins
    exact ⟨rfl, .close⟩
  | _ => cases uses

/-- No other operation makes such a request. -/
theorem onBus?_of_begin (begins : c.begin ids clock operation = .ok begun)
    (other : operation.usesBus = false) : begun.1.onBus? = none := by
  cases operation with
  | send | closeBus => cases other
  | createBus | busState | subscribe =>
    cases begins
    rfl
  | _ =>
    simp only [begin, bind, Except.bind] at begins
    split at begins
    · cases begins
    · cases begins
      rfl

variable {bus : UInt64} {pending : Pending}

theorem lost_of_leaves (leaves : operation.Leaves bus pending) (c : Client) (e : NodeError) :
    c.lost e pending = if e.isTransport ∧ c.bus = bus then { c with bus := 0 } else c := by
  cases leaves with
  | send | close =>
    simp only [lost, dropBus]
    grind

/-- All that the end of a call over a bus changes is that the bus is closed, if it is gone and still
the open one. -/
theorem conclude_of_leaves (leaves : operation.Leaves bus pending) (c : Client) (p : Proposals)
    (reply : Option Reply) :
    (c.conclude p pending reply).1 =
        (if operation.endsBus reply ∧ c.bus = bus then { c with bus := 0 } else c) ∧
      (c.conclude p pending reply).2.1 = p := by
  have failed := lost_of_leaves leaves c
  match reply with
  | none => exact ⟨failed _, rfl⟩
  | some (.error e) =>
    -- Of all failures only one that the exchange reports is not a loss.
    cases e with
    | remote | io | malformed | connectionClosed | tooLarge | unexpectedResponse =>
      exact ⟨failed _, rfl⟩
  | some (.ok response) =>
    cases response with
    | ack ack =>
      cases granted : ack.ok with
      | false | true =>
        cases leaves with
        | send | close =>
          simp [conclude, settle, Method.expect, bind, Except.bind, pure, Except.pure, granted,
            Operation.endsBus, dropBus]
    -- An answer of another kind tells as little as none.
    | _ =>
      cases leaves with
      | send => exact ⟨failed (.wire (.unexpectedResponse Method.send.name)), rfl⟩
      | close => exact ⟨failed (.wire (.unexpectedResponse Method.closeBus.name)), rfl⟩

end Client

namespace Session

/-- A session calls the directory only. -/
theorem isDirectory_course {s : Session} {event : Event} {turn : Turn}
    (course : Course s event turn) {call : Nat} {request : Request}
    (calls : .call call request ∈ turn.2) :
    request.method.isDirectory := by
  cases course with
  | applies | cleared | unregisters | asks | beats | reconnects | moves =>
    cases List.mem_singleton.mp calls
    rfl
  | _ => simp [finish] at calls

end Session

/-! ### What a step does to the clients -/

namespace Node

/-- The client's call that an event brings to its end. -/
def errandHears? (n : Node) : Event → Option (Nat × Errand × Option Reply)
  | .answer call reply => (n.errandWaiting? call).map fun (job, errand) => (job, errand, some reply)
  | .timeout call =>
    ((n.errandWaiting? call).filter fun (_, errand) =>
      errand.wait?.any (·.deadline ≤ n.session.world.now)).map fun (job, errand) =>
        (job, errand, none)
  | _ => none

/-- All calls that are waited for were so before; some may have been called off since. -/
def Fewer (n : Node) (errands : Table Errand) : Prop :=
  ∀ job client pending wait switch,
    errands.get? job = some (.asking client pending wait switch) →
    ∃ before, n.errands.get? job = some (.asking client pending wait before)

/-- No message is sent, and no bus is asked to be closed. -/
def OffBus (effects : List Effect) : Prop :=
  ∀ call request, .call call request ∈ effects → request.onBus? = none

/-- What a step does to the clients and to their calls. -/
inductive Dealing (n : Node) : Event → Turn → Prop where
  /-- The session goes on, or a call is dropped or called off. -/
  | aside {event effects} (session : Session) (errands : Table Errand) (fewer : n.Fewer errands)
      (later : n.session.nextCall ≤ session.nextCall) (offBus : OffBus effects) :
      Dealing n event ({ n with session, errands }, effects)
  | opens {event job number outcome} (session : Session) (c : Client) (noBus : c.bus = 0)
      (same : session.nextCall = n.session.nextCall) (opening : event.ended? = none) :
      Dealing n event
        ({ session, clients := n.clients.set number c, errands := n.errands.erase job },
          [.finish job outcome])
  | fails {job number operation error} (c : Client) (found : n.clients.get? number = some c)
      (fails : c.begin n.session.ids n.session.world.clock operation = .error error) :
      Dealing n (.operate job number operation) (n.finish job (.failed error))
  | begins {job number operation request pending ids} (c : Client)
      (found : n.clients.get? number = some c)
      (begins : c.begin n.session.ids n.session.world.clock operation =
        .ok (request, pending, ids)) :
      Dealing n (.operate job number operation)
        ({ n with
            session := { n.session with ids, nextCall := n.session.nextCall + 1 }
            errands := n.errands.set job (.asking number pending
              ⟨n.session.nextCall, n.session.world.now + c.patience.millis⟩ .off) },
          [.call n.session.nextCall request])
  | ends {event job number pending wait switch reply effects} (c : Client)
      (errands : Table Errand)
      (hears : n.errandHears? event = some (job, .asking number pending wait switch, reply))
      (found : n.clients.get? number = some c) (fewer : n.Fewer errands) (offBus : OffBus effects) :
      Dealing n event
        ({ session :=
             { n.session with proposals := (c.conclude n.session.proposals pending reply).2.1 }
           clients := n.clients.set number (c.conclude n.session.proposals pending reply).1
           errands }, effects)

variable {n : Node} {event : Event}

theorem fewer_same (n : Node) : n.Fewer n.errands :=
  fun _ _ _ _ switch found => ⟨switch, found⟩

theorem fewer_erase (n : Node) (job : Nat) : n.Fewer (n.errands.erase job) :=
  fun _ _ _ _ switch found => ⟨switch, (Table.of_get?_erase found).2⟩

theorem fewer_set {job : Nat} {errand : Errand} (idle : errand.wait? = none) :
    n.Fewer (n.errands.set job errand) := by
  intro other client pending wait switch found
  obtain ⟨-, rfl⟩ | ⟨-, before⟩ := Table.of_get?_set found
  · cases idle
  · exact ⟨switch, before⟩

theorem fewer_signal (n : Node) (job : Nat) (signal : StopSwitch.Signal) :
    n.Fewer (n.errands.modify job (·.signal signal)) := by
  intro other client pending wait switch found
  rw [Table.get?_modify] at found
  split at found
  · obtain ⟨errand, before, same⟩ := Option.map_eq_some_iff.mp found
    cases errand with
    | asking _ _ _ before' =>
      cases same
      exact ⟨before', before⟩
    | dialing | receiving => cases same
  · exact ⟨switch, found⟩

theorem offBus_nil : OffBus [] := by
  simp [OffBus]

theorem offBus_finish {job : Nat} {outcome : Outcome} : OffBus [.finish job outcome] := by
  simp [OffBus]

theorem dealing_of_errands {errands : Table Errand} {effects : List Effect}
    (fewer : n.Fewer errands) (offBus : OffBus effects) :
    Dealing n event ({ n with errands }, effects) :=
  .aside n.session errands fewer (Nat.le_refl _) offBus

theorem dealing_of_nothing : Dealing n event (n, []) :=
  dealing_of_errands (fewer_same n) offBus_nil

theorem session_dealing {errands : Table Errand} (fewer : n.Fewer errands) (seen : Session.Event) :
    Dealing n event
      ({ n with session := (n.session.step seen).1, errands }, (n.session.step seen).2) := by
  have course := n.session.step_course seen
  exact .aside _ _ fewer (Session.nextCall_course course) fun _ _ calls =>
    Request.onBus?_of_isDirectory (Session.isDirectory_course course calls)

theorem connect_dealing {job number : Nat} {channelType : UInt32} {argument : String}
    {patience : Duration} (opening : event.ended? = none) :
    Dealing n event (n.connect job number channelType argument patience) := by
  simp only [connect]
  split
  next id ids _ => exact .opens { n.session with ids } _ rfl rfl opening
  next => exact dealing_of_errands (fewer_erase n job) offBus_finish

theorem errandWaiting?_spec {call job : Nat} {errand : Errand}
    (found : n.errandWaiting? call = some (job, errand)) :
    ∃ client pending wait switch, errand = .asking client pending wait switch ∧
      wait.call = call ∧ n.errands.get? job = some errand := by
  have isErrand := Table.get?_of_mem (List.mem_of_find?_eq_some found)
  have waits := List.find?_some found
  cases errand with
  | asking client pending wait switch =>
    exact ⟨client, pending, wait, switch, rfl, by simpa [Errand.wait?] using waits, isErrand⟩
  | dialing | receiving => cases waits

/-- Who hears of the end of a call has waited for that call. -/
theorem errandHears?_spec {job : Nat} {errand : Errand} {reply : Option Reply}
    (hears : n.errandHears? event = some (job, errand, reply)) :
    ∃ call, event.ended? = some (call, reply) ∧ n.errandWaiting? call = some (job, errand) ∧
      n.step event = n.errandAnswered job errand reply := by
  cases event with
  | answer call given =>
    obtain ⟨entry, waiting, same⟩ := Option.map_eq_some_iff.mp hears
    cases same
    exact ⟨call, rfl, waiting, by simp only [step, answer, waiting]⟩
  | timeout call =>
    obtain ⟨entry, filtered, same⟩ := Option.map_eq_some_iff.mp hears
    cases same
    obtain ⟨waiting, late⟩ := Option.filter_eq_some_iff.mp filtered
    exact ⟨call, rfl, waiting, by simp only [step, timeout, waiting, if_pos late]⟩
  | _ => cases hears

theorem errandAnswered_dealing {job : Nat} {errand : Errand} {reply : Option Reply}
    (hears : n.errandHears? event = some (job, errand, reply)) :
    Dealing n event (n.errandAnswered job errand reply) := by
  obtain ⟨call, -, waiting, -⟩ := errandHears?_spec hears
  obtain ⟨client, pending, wait, switch, rfl, -, -⟩ := errandWaiting?_spec waiting
  simp only [errandAnswered]
  split
  · exact dealing_of_nothing
  next c found =>
    split
    · exact .ends c _ hears found (fewer_set rfl) (by simp [OffBus])
    · exact .ends c _ hears found (fewer_set rfl) (by simp [OffBus])
    · exact .ends c _ hears found (fewer_erase n job) offBus_finish

theorem dialed_dealing {job : Nat} {result : Except WireError Unit} :
    Dealing n (.dialed job result) (n.dialed job result) := by
  simp only [dialed]
  split
  · exact connect_dealing rfl
  · exact dealing_of_errands (fewer_erase n job) offBus_finish
  · exact session_dealing (fewer_same n) _

theorem operate_dealing {job number : Nat} {operation : Operation} :
    Dealing n (.operate job number operation) (n.operate job number operation) := by
  simp only [operate]
  split
  · exact dealing_of_nothing
  next c found =>
    split
    next fails => exact .fails c found fails
    next begins => exact .begins c found begins

theorem item_dealing {job : Nat} {item : Option (Except WireError Item)} :
    Dealing n (.item job item) (n.item job item) := by
  simp only [Node.item]
  split
  · split
    · exact dealing_of_errands (fewer_erase n job) offBus_finish
    · exact dealing_of_errands (fewer_erase n job) offBus_finish
    · split
      · exact dealing_of_errands (fewer_same n) (by simp [OffBus])
      · exact dealing_of_errands (fewer_same n) (by simp [OffBus])
  · exact dealing_of_nothing

/-- Every step is one of the list. -/
theorem step_dealing (n : Node) (event : Event) : Dealing n event (n.step event) := by
  cases event with
  | session event => exact session_dealing (fewer_same n) event
  | dial => exact dealing_of_errands (fewer_set rfl) (by simp [OffBus])
  | dialed => exact dialed_dealing
  | connect => exact connect_dealing rfl
  | operate => exact operate_dealing
  | answer call reply =>
    simp only [step, answer]
    split
    next job errand found => exact errandAnswered_dealing (by simp only [errandHears?, found]; rfl)
    next => exact session_dealing (fewer_same n) (.answer call reply)
  | timeout call =>
    simp only [step, timeout]
    split
    next job errand found =>
      split
      next late =>
        exact errandAnswered_dealing (by simp only [errandHears?, found, Option.filter, late]; rfl)
      next => exact dealing_of_nothing
    next => exact session_dealing (fewer_same n) _
  | item => exact item_dealing
  | signal job signal => exact dealing_of_errands (fewer_signal n job signal) offBus_nil
  | heed job =>
    simp only [step, heed]
    split
    · split
      · exact dealing_of_errands (fewer_erase n job) offBus_finish
      · exact dealing_of_nothing
    · exact dealing_of_nothing
  | abandon job => exact session_dealing (fewer_erase n job) (.abandon job)
  | elapse millis =>
    simp only [step, elapse]
    split
    · exact session_dealing (fewer_same n) (.elapse millis)
    · exact dealing_of_nothing

/-! ### From the beginning of a call to its end -/

section

variable {turn : Turn} {number job : Nat} {pending : Pending} {wait : Wait}

theorem nextCall_dealing (dealing : Dealing n event turn) :
    n.session.nextCall ≤ turn.1.session.nextCall := by
  cases dealing with
  | aside _ _ _ later => exact later
  | opens _ _ _ same => exact Nat.le_of_eq same.symm
  | begins => exact Nat.le_succ _
  | fails | ends => exact Nat.le_refl _

theorem client_dealing (dealing : Dealing n event turn) (held : (n.clients.get? number).isSome) :
    (turn.1.clients.get? number).isSome := by
  -- Clients are opened and changed, and stay until the end.
  cases dealing with
  | opens | ends =>
    rw [Table.get?_set]
    split
    · rfl
    · exact held
  | aside | fails | begins => exact held

/-- A call that is waited for after a step was waited for before it, or was made in it. -/
theorem asking_dealing (dealing : Dealing n event turn) {client : Nat} {switch : StopSwitch}
    (found : turn.1.errands.get? job = some (.asking client pending wait switch)) :
    (∃ before, n.errands.get? job = some (.asking client pending wait before)) ∨
      (wait.call = n.session.nextCall ∧ n.session.nextCall < turn.1.session.nextCall) := by
  cases dealing with
  | aside _ _ fewer => exact .inl (fewer job client pending wait switch found)
  | ends _ _ _ _ fewer => exact .inl (fewer job client pending wait switch found)
  | opens | fails => exact .inl ⟨switch, (Table.of_get?_erase found).2⟩
  | begins =>
    obtain ⟨-, isNew⟩ | ⟨-, before⟩ := Table.of_get?_set found
    · cases isNew
      exact .inr ⟨rfl, Nat.lt_succ_self _⟩
    · exact .inl ⟨switch, before⟩

/-- The calls that clients wait for have been made. -/
def Made (n : Node) : Prop :=
  ∀ job client pending wait switch,
    n.errands.get? job = some (.asking client pending wait switch) →
    wait.call < n.session.nextCall

theorem made_step (made : n.Made) (event : Event) : (n.step event).1.Made := by
  intro job client pending wait switch found
  have dealing := n.step_dealing event
  obtain ⟨switchBefore, before⟩ | ⟨isNew, later⟩ := asking_dealing dealing found
  · exact Nat.lt_of_lt_of_le (made _ _ _ _ _ before) (nextCall_dealing dealing)
  · exact isNew ▸ later

theorem made_run (options : KeepAliveOptions) (world : Surroundings) (events : List Event) :
    ((fresh options world).run events).1.Made :=
  run_invariant Made (fun _ event made => made_step made event) (by simp [Made, fresh]) events

/-- Nobody but this job waits for this call, and what it has left to do is for this client. -/
structure Sole (job number : Nat) (pending : Pending) (call : Nat) (n : Node) : Prop where
  made : call < n.session.nextCall
  sole : ∀ other client p wait switch,
    n.errands.get? other = some (.asking client p wait switch) → wait.call = call →
    other = job ∧ client = number ∧ p = pending
  held : (n.clients.get? number).isSome

theorem sole_step {call : Nat} (sole : Sole job number pending call n) (event : Event) :
    Sole job number pending call (n.step event).1 := by
  have dealing := n.step_dealing event
  refine ⟨Nat.lt_of_lt_of_le sole.made (nextCall_dealing dealing), ?_,
    client_dealing dealing sole.held⟩
  intro other client p wait switch found same
  obtain ⟨switchBefore, before⟩ | ⟨isNew, -⟩ := asking_dealing dealing found
  · exact sole.sole other client p wait switchBefore before same
  -- A new call has a number of its own.
  · have made := sole.made
    omega

theorem sole_run {call : Nat} (sole : Sole job number pending call n) (events : List Event) :
    Sole job number pending call (n.run events).1 :=
  run_invariant (Sole job number pending call) (fun _ event kept => sole_step kept event) sole
    events

/-- From the step that makes it on, a call belongs to the operation that begins with it. -/
theorem sole_of_begins {operation : Operation} {c : Client} {call : Nat} {request : Request}
    (made : n.Made) (found : n.clients.get? number = some c)
    (calls : .call call request ∈ (n.step (.operate job number operation)).2) :
    ∃ pending ids,
      c.begin n.session.ids n.session.world.clock operation = .ok (request, pending, ids) ∧
      Sole job number pending call (n.step (.operate job number operation)).1 := by
  simp only [step, operate, found] at calls ⊢
  cases begins : c.begin n.session.ids n.session.world.clock operation with
  | error e => simp [begins, finish] at calls
  | ok begun =>
    obtain ⟨asked, pending, ids⟩ := begun
    simp only [begins, List.mem_singleton, Effect.call.injEq] at calls ⊢
    obtain ⟨rfl, rfl⟩ := calls
    refine ⟨pending, ids, rfl, by simp, ?_, by simp [found]⟩
    intro other client p wait switch asking same
    obtain ⟨rfl, isNew⟩ | ⟨-, before⟩ := Table.of_get?_set asking
    · cases isNew
      exact ⟨rfl, rfl, rfl⟩
    -- The calls that were waited for before have smaller numbers.
    · have earlier := made other client p wait switch before
      omega

/-- An operation on the bus that begins with a call. -/
theorem sole_of_calls {operation : Operation} {c : Client} {call : Nat} {request : Request}
    (made : n.Made) (uses : operation.usesBus) (found : n.clients.get? number = some c)
    (calls : .call call request ∈ (n.step (.operate job number operation)).2) :
    ∃ pending, operation.Leaves c.bus pending ∧
      Sole job number pending call (n.step (.operate job number operation)).1 := by
  obtain ⟨pending, ids, begins, sole⟩ := sole_of_begins made found calls
  obtain ⟨-, -, leaves⟩ := Client.begin_of_usesBus uses begins
  exact ⟨pending, leaves, sole⟩

end

/-- Only an operation on the bus makes a call over it, and the bus is the one that is open. -/
theorem operates_of_onBus {turn : Turn} (dealing : Dealing n event turn) {call : Nat}
    {request : Request} {client bus : UInt64} (calls : .call call request ∈ turn.2)
    (onBus : request.onBus? = some (client, bus)) :
    ∃ job number operation c, event = .operate job number operation ∧ operation.usesBus ∧
      n.clients.get? number = some c ∧ client = c.id ∧ bus = c.bus ∧ bus ≠ 0 := by
  have notOff (effects : List Effect) (offBus : OffBus effects)
      (calls : .call call request ∈ effects) : False := by
    rw [offBus call request calls] at onBus
    cases onBus
  cases dealing with
  | aside _ _ _ _ offBus => exact (notOff _ offBus calls).elim
  | ends _ _ _ _ _ offBus => exact (notOff _ offBus calls).elim
  | opens | fails => exact (notOff _ offBus_finish calls).elim
  | @begins job number operation _ pending ids c found begins =>
    cases List.mem_singleton.mp calls
    cases uses : operation.usesBus with
    | false =>
      rw [Client.onBus?_of_begin begins uses] at onBus
      cases onBus
    | true =>
      obtain ⟨isOpen, names, -⟩ := Client.begin_of_usesBus uses begins
      cases names.symm.trans onBus
      exact ⟨job, number, operation, c, rfl, uses, found, rfl, rfl, isOpen⟩

/-- A call that nobody waits for any more changes no client when it ends. -/
theorem clients_of_unheard {turn : Turn} (dealing : Dealing n event turn)
    (unheard : n.errandHears? event = none) {ended : Nat × Option Reply}
    (ends : event.ended? = some ended) : turn.1.clients = n.clients := by
  cases dealing with
  | aside | fails | begins => rfl
  | opens _ _ _ _ opening =>
    rw [opening] at ends
    cases ends
  | ends _ _ hears =>
    rw [hears] at unheard
    cases unheard

/-- A call over a bus has ended: nothing has changed but that the bus is closed, if it is gone and
still the open one. -/
structure Settles (n : Node) (turn : Turn) (job number : Nat) (bus : UInt64) (gone : Bool) :
    Prop where
  session : turn.1.session = n.session
  errands : turn.1.errands = n.errands.erase job
  effects : ∃ outcome, turn.2 = [.finish job outcome]
  clients : ∀ other, turn.1.clients.get? other = (n.clients.get? other).map fun c =>
    if gone ∧ other = number ∧ c.bus = bus then { c with bus := 0 } else c

theorem settles_of_leaves {operation : Operation} {bus : UInt64} {pending : Pending}
    {job number : Nat} {wait : Wait} {switch : StopSwitch} (leaves : operation.Leaves bus pending)
    (held : (n.clients.get? number).isSome) (reply : Option Reply) :
    Settles n (n.errandAnswered job (.asking number pending wait switch) reply) job number bus
      (operation.endsBus reply) := by
  obtain ⟨c, found⟩ := Option.isSome_iff_exists.mp held
  obtain ⟨client, proposals⟩ := c.conclude_of_leaves leaves n.session.proposals reply
  have turn : n.errandAnswered job (.asking number pending wait switch) reply =
      finish
        { n with clients := n.clients.set number (c.conclude n.session.proposals pending reply).1 }
        job (c.conclude n.session.proposals pending reply).2.2 := by
    simp only [errandAnswered, found, proposals]
    cases leaves with
    | send | close => rfl
  rw [turn, client]
  refine ⟨rfl, rfl, ⟨_, rfl⟩, fun other => ?_⟩
  simp only [finish, Table.get?_set]
  by_cases same : other = number
  · subst same
    simp [found]
  · simp [same]

/-- Whatever else goes on, a message or a request to close names its client and the bus that was
open when it began; without a bus it is not made. When its call ends, however late, it closes no
other bus than that, and nothing changes if it was refused. -/
theorem buses_kept_apart (options : KeepAliveOptions) (world : Surroundings) (before : List Event)
    (event : Event) :
    let n := ((fresh options world).run before).1
    let turn := n.step event
    (∀ call request client bus, .call call request ∈ turn.2 →
      request.onBus? = some (client, bus) →
      ∃ job number operation c, event = .operate job number operation ∧ operation.usesBus ∧
        n.clients.get? number = some c ∧ client = c.id ∧ bus = c.bus ∧ bus ≠ 0) ∧
    (∀ job number operation c, event = .operate job number operation → operation.usesBus →
      n.clients.get? number = some c → c.bus = 0 →
      turn = n.finish job (.failed .busNotOpen)) ∧
    ∀ earlier during job number operation c call request reply,
      before = earlier ++ .operate job number operation :: during → operation.usesBus →
      ((fresh options world).run earlier).1.clients.get? number = some c →
      .call call request ∈
        (((fresh options world).run earlier).1.step (.operate job number operation)).2 →
      event.ended? = some (call, reply) →
      if (n.errandHears? event).isSome then
        Settles n turn job number c.bus (operation.endsBus reply)
      else turn.1.clients = n.clients := by
  intro n turn
  have dealing : Dealing n event turn := n.step_dealing event
  refine ⟨?_, ?_, ?_⟩
  · intro call request client bus calls onBus
    exact operates_of_onBus dealing calls onBus
  · rintro job number operation c rfl uses found noBus
    have refused := Client.begin_of_no_bus n.session.ids n.session.world.clock uses noBus
    simp only [turn, step, operate, found, refused]
  · rintro earlier during job number operation c call request reply rfl uses found calls ends
    obtain ⟨pending, leaves, began⟩ :=
      sole_of_calls (made_run options world earlier) uses found calls
    have sole : Sole job number pending call n := by
      simp only [n, run_append, run_cons]
      exact sole_run began during
    cases hears : n.errandHears? event with
    | none => exact clients_of_unheard dealing hears ends
    | some heard =>
      obtain ⟨waiting, errand, given⟩ := heard
      obtain ⟨ended, endsToo, found, answered⟩ := errandHears?_spec hears
      cases ends.symm.trans endsToo
      obtain ⟨client, p, wait, switch, rfl, same, asking⟩ := errandWaiting?_spec found
      -- Who hears is the job that made the call, and does what that has left to do.
      obtain ⟨rfl, rfl, rfl⟩ := sole.sole waiting client p wait switch asking same
      have turns : turn = n.errandAnswered waiting (.asking client p wait switch) reply :=
        answered
      rw [turns]
      exact settles_of_leaves leaves sole.held reply

/-- A node registers and opens a client, and a match opens bus 99. -/
def busOpened : List Event :=
  Session.firstHeartbeat.map .session ++
    [.connect 1 0 10 "" Client.standardPatience, .operate 2 0 (.confirm 99 none),
      .answer 2 (.ok (.ack .done))]

def sending : Event := .operate 3 0 (.send ⟨0, 0, 0, 0, 0, "hello", "", none⟩)

/-- Another match opens bus 5. -/
def busReplaced : List Event := [.operate 4 0 (.confirm 5 none), .answer 4 (.ok (.ack .done))]

/-- The connection that carried a message on the first bus breaks when the second one is open. -/
theorem late_failure_spares_bus :
    let n := ((fresh .standard Session.stillWorld).run (busOpened ++ sending :: busReplaced)).1
    let turn := n.step (.answer 3 (.error .connectionClosed))
    (∃ request, .call 3 request ∈
        (((fresh .standard Session.stillWorld).run busOpened).1.step sending).2 ∧
      request.onBus? = some (28673, 99)) ∧
    Settles n turn 3 0 99 true ∧ (turn.1.clients.get? 0).map (·.bus) = some 5 := by
  intro n turn
  let message : BusMessage := ⟨28675, 28673, 0, 99, 0, "hello", "", none⟩
  have calls : .call 3 (.send message) ∈
      (((fresh .standard Session.stillWorld).run busOpened).1.step sending).2 := by decide
  have hears : (n.errandHears? (.answer 3 (.error .connectionClosed))).isSome := by decide
  obtain ⟨-, -, ends⟩ := buses_kept_apart .standard Session.stillWorld
    (busOpened ++ sending :: busReplaced) (.answer 3 (.error .connectionClosed))
  have settles := ends busOpened busReplaced 3 0 _ ⟨⟨28673, 10, ""⟩, 99, Client.standardPatience⟩ 3
    (.send message) (some (.error .connectionClosed)) rfl rfl (by decide) calls rfl
  rw [if_pos hears] at settles
  exact ⟨⟨_, calls, rfl⟩, settles, by decide⟩

end Node

end ExchangeNode
