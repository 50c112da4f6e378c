import ExchangeNode.Proofs.Node.Origin

/-!
# How an open bus comes to be closed

A client forgets its bus when the exchange has acknowledged that it is closed, and when a message on
it or its closing got lost on the way. There is one more way: a selection that is granted assigns
the bus that the exchange names, and where the exchange has opened none, that is no bus at all. The
bus that was open is then forgotten without having been closed, and `granted_selection_forgets_bus`
shows that this happens.
-/

namespace ExchangeNode

/-- The bus that an operation takes on in place of the one it had, if it is granted one. -/
def Operation.assigns? : Operation → Option Reply → Option UInt64
  | @Operation.select .supply _, some (.ok (.confirmation confirmation)) =>
    if confirmation.ok then some confirmation.bus else none
  | .confirm matched _, some (.ok (.ack ack)) => if ack.ok then some matched else none
  | _, _ => none

namespace Client

variable {operation : Operation} {bus : UInt64} {request : Request} {pending : Pending}

theorem leaves_of_becomes (becomes : operation.Becomes bus request pending)
    (uses : operation.usesBus) : operation.Leaves bus pending := by
  cases becomes with
  | send | closeBus => constructor
  | _ => cases uses

theorem assigns?_of_usesBus (uses : operation.usesBus) (reply : Option Reply) :
    operation.assigns? reply = none := by
  cases operation with
  | send | closeBus => rfl
  | _ => cases uses

theorem assigns?_of_failure (operation : Operation) :
    operation.assigns? none = none ∧ ∀ e, operation.assigns? (some (.error e)) = none := by
  cases operation with
  | @select side =>
    cases side with
    | supply | demand => exact ⟨rfl, fun _ => rfl⟩
  | _ => exact ⟨rfl, fun _ => rfl⟩

/-- Away from the bus, all that the end of a call changes of its client is the bus that it assigns,
if it assigns one. -/
theorem conclude_of_becomes (becomes : operation.Becomes bus request pending)
    (other : operation.usesBus = false) (c : Client) (p : Proposals) (reply : Option Reply) :
    (c.conclude p pending reply).1 = (operation.assigns? reply).elim c fun bus => { c with bus } := by
  -- A call that failed closes no bus: it was about none.
  have kept (e : NodeError) : c.lost e pending = c := by
    cases becomes with
    | send | closeBus => cases other
    | _ => rfl
  match reply with
  | none =>
    rw [(assigns?_of_failure operation).1]
    exact kept _
  | some (.error e) =>
    rw [(assigns?_of_failure operation).2]
    exact kept _
  | some (.ok response) =>
    cases becomes with
    | send | closeBus => cases other
    | notify | propose =>
      cases response with
      | ack ack =>
        obtain ⟨granted, err⟩ := ack
        cases granted <;> rfl
      | _ => rfl
    | @select side =>
      cases side with
      | supply | demand =>
        cases response with
        | confirmation confirmation =>
          obtain ⟨granted, bus, err⟩ := confirmation
          cases granted <;> rfl
        | _ => rfl
    | confirm =>
      cases response with
      | ack ack =>
        obtain ⟨granted, err⟩ := ack
        cases granted <;> rfl
      | _ => rfl
    | createBus | busState =>
      cases response with
      | _ => rfl
    | subscribe | subscribeBus => rfl

theorem bus_conclude_iff (becomes : operation.Becomes bus request pending) {c : Client}
    (isOpen : c.bus ≠ 0) (p : Proposals) (reply : Option Reply) :
    (c.conclude p pending reply).1.bus = 0 ↔
      (operation.usesBus ∧ bus = c.bus ∧ operation.endsBus reply) ∨
        operation.assigns? reply = some 0 := by
  cases uses : operation.usesBus with
  | true =>
    obtain ⟨client, -⟩ := c.conclude_of_leaves (leaves_of_becomes becomes uses) p reply
    rw [client, assigns?_of_usesBus uses]
    by_cases gone : operation.endsBus reply ∧ c.bus = bus
    · simp [gone]
    · rw [if_neg gone]
      constructor
      · exact fun closed => absurd closed isOpen
      · rintro (⟨-, same, ends⟩ | none)
        · exact absurd ⟨ends, same.symm⟩ gone
        · cases none
  | false =>
    rw [conclude_of_becomes becomes uses]
    cases assigned : operation.assigns? reply with
    | none => simp [isOpen]
    | some bus => simp

end Client

namespace Node

/-- The client that an event opens, in place of any other under its number. -/
def opens? (n : Node) : Event → Option Nat
  | .connect _ client _ _ _ => some client
  | .dialed job (.ok ()) =>
    match n.errands.get? job with
    | some (.dialing client _ _ _) => some client
    | _ => none
  | _ => none

variable {n start : Node} {event : Event} {number : Nat} {before : List Event}

theorem client_connect {job client : Nat} {channelType : UInt32} {argument : String}
    {patience : Duration} (other : client ≠ number) :
    (n.connect job client channelType argument patience).1.clients.get? number =
      n.clients.get? number := by
  simp only [connect]
  split
  · simp only [finish, Table.get?_set, if_neg other.symm]
  · rfl

theorem client_of_unheard (unheard : n.errandHears? event = none)
    (other : n.opens? event ≠ some number) :
    (n.step event).1.clients.get? number = n.clients.get? number := by
  cases event with
  | connect job client =>
    exact client_connect fun same => other (congrArg some same)
  | dialed job result =>
    simp only [step, dialed]
    split
    next client channelType argument patience dialing =>
      apply client_connect
      intro same
      exact other (by simp only [opens?, dialing, same])
    · rfl
    · rfl
  | answer call reply => rw [clients_of_unheard (n.step_dealing _) unheard rfl]
  | timeout call => rw [clients_of_unheard (n.step_dealing _) unheard rfl]
  | operate job client operation =>
    simp only [step, operate]
    split
    · rfl
    · split
      · rfl
      · rfl
  | item job item =>
    simp only [step, Node.item]
    split
    · split
      · rfl
      · rfl
      · split
        · rfl
        · rfl
    · rfl
  | heed job =>
    simp only [step, heed]
    split
    · split
      · rfl
      · rfl
    · rfl
  | elapse millis =>
    simp only [step, elapse]
    split
    · rfl
    · rfl
  | session | dial | signal | abandon => rfl

/-- A client stays as it is unless it is opened or a call of its own comes to its end. -/
theorem client_of_others (other : n.opens? event ≠ some number)
    (others : ∀ job pending wait switch reply,
      n.errandHears? event ≠ some (job, .asking number pending wait switch, reply)) :
    (n.step event).1.clients.get? number = n.clients.get? number := by
  cases hears : n.errandHears? event with
  | none => exact client_of_unheard hears other
  | some entry =>
    obtain ⟨job, errand, reply⟩ := entry
    obtain ⟨call, -, waiting, turn⟩ := errandHears?_spec hears
    obtain ⟨client, pending, wait, switch, rfl, -, -⟩ := errandWaiting?_spec waiting
    have different : number ≠ client := by
      rintro rfl
      exact others job pending wait switch reply hears
    cases found : n.clients.get? client with
    | none => simp only [turn, errandAnswered, found]
    | some c => rw [(settled_of_hears hears found).1, Table.get?_set, if_neg different]

/-- A message on the bus or its closing has come to an end with which the bus is gone. -/
def Closes (start : Node) (before : List Event) (event : Event) (number : Nat) (bus : UInt64) :
    Prop :=
  ∃ job operation c request reply,
    start.Concludes before event job number operation c request reply ∧
      operation.usesBus ∧ c.bus = bus ∧ operation.endsBus reply

/-- A selection or a consent to a match has been granted, and no bus with it. -/
def Blanks (start : Node) (before : List Event) (event : Event) (number : Nat) : Prop :=
  ∃ job operation c request reply,
    start.Concludes before event job number operation c request reply ∧
      operation.assigns? reply = some 0

section

variable (options : KeepAliveOptions) (world : Surroundings) {c : Client} {job : Nat}
  {pending : Pending} {wait : Wait} {switch : StopSwitch} {reply : Option Reply}

/-- Where a call of the client comes to its end, its bus is closed for one of the reasons. -/
theorem closed_iff_of_hears (isOpen : c.bus ≠ 0)
    (hears : ((fresh options world).run before).1.errandHears? event =
      some (job, .asking number pending wait switch, reply)) (p : Proposals) :
    (c.conclude p pending reply).1.bus = 0 ↔
      Closes (fresh options world) before event number c.bus ∨
        Blanks (fresh options world) before event number := by
  constructor
  · intro closed
    obtain ⟨operation, begun, request, concludes, becomes⟩ := concludes_of_hears options world hears
    rcases (Client.bus_conclude_iff becomes isOpen p reply).mp closed with ⟨uses, same, ends⟩ | none
    · exact .inl ⟨job, operation, begun, request, reply, concludes, uses, same, ends⟩
    · exact .inr ⟨job, operation, begun, request, reply, concludes, none⟩
  -- The reason names an operation of its own, but what that has left to do is the same.
  · rintro (⟨_, _, _, _, _, concludes, uses, same, ends⟩ | ⟨_, _, _, _, _, concludes, none⟩)
    · obtain ⟨_, _, _, becomes, own, -⟩ := hears_of_concludes options world concludes
      cases hears.symm.trans own
      exact (Client.bus_conclude_iff becomes isOpen p reply).mpr (.inl ⟨uses, same, ends⟩)
    · obtain ⟨_, _, _, becomes, own, -⟩ := hears_of_concludes options world concludes
      cases hears.symm.trans own
      exact (Client.bus_conclude_iff becomes isOpen p reply).mpr (.inr none)

/-- Where none does, there is no reason. -/
theorem no_reason_of_others {bus : UInt64}
    (others : ∀ job pending wait switch reply,
      ((fresh options world).run before).1.errandHears? event ≠
        some (job, .asking number pending wait switch, reply)) :
    ¬ (Closes (fresh options world) before event number bus ∨
      Blanks (fresh options world) before event number) := by
  rintro (⟨_, _, _, _, _, concludes, -⟩ | ⟨_, _, _, _, _, concludes, -⟩)
  · obtain ⟨_, _, _, -, hears, -⟩ := hears_of_concludes options world concludes
    exact others _ _ _ _ _ hears
  · obtain ⟨_, _, _, -, hears, -⟩ := hears_of_concludes options world concludes
    exact others _ _ _ _ _ hears

end

/-- After any run, an event closes the bus of a client just if the exchange acknowledges that it is
closed, a message on it or its closing gets lost, or a selection is granted without a bus. -/
theorem bus_closes_iff (options : KeepAliveOptions) (world : Surroundings) (before : List Event)
    (event : Event) (number : Nat) (c : Client)
    (found : ((fresh options world).run before).1.clients.get? number = some c)
    (isOpen : c.bus ≠ 0)
    (kept : ((fresh options world).run before).1.opens? event ≠ some number) :
    ∃ after, (((fresh options world).run before).1.step event).1.clients.get? number = some after ∧
      (after.bus = 0 ↔ Closes (fresh options world) before event number c.bus ∨
        Blanks (fresh options world) before event number) := by
  by_cases own : ∃ job pending wait switch reply,
      ((fresh options world).run before).1.errandHears? event =
        some (job, .asking number pending wait switch, reply)
  · obtain ⟨job, pending, wait, switch, reply, hears⟩ := own
    obtain ⟨turn, -⟩ := settled_of_hears hears found
    refine ⟨_, ?_, closed_iff_of_hears options world isOpen hears
      ((fresh options world).run before).1.session.proposals⟩
    rw [turn, Table.get?_set, if_pos rfl]
  · have others : ∀ job pending wait switch reply,
        ((fresh options world).run before).1.errandHears? event ≠
          some (job, .asking number pending wait switch, reply) :=
      fun job pending wait switch reply hears => own ⟨job, pending, wait, switch, reply, hears⟩
    refine ⟨c, (client_of_others kept others).trans found, ?_⟩
    constructor
    · exact fun closed => absurd closed isOpen
    · exact fun reason => absurd reason (no_reason_of_others options world others)

/-- The connection that carried a message breaks. -/
theorem lost_message_closes_bus :
    let n := ((fresh .standard Session.stillWorld).run (busOpened ++ [sending])).1
    let event : Event := .answer 3 (.error .connectionClosed)
    ((n.clients.get? 0).map (·.bus) = some 99 ∧ n.opens? event ≠ some 0) ∧
      ∃ after, (n.step event).1.clients.get? 0 = some after ∧ after.bus = 0 ∧
        (after.bus = 0 ↔
          Closes (fresh .standard Session.stillWorld) (busOpened ++ [sending]) event 0 99 ∨
            Blanks (fresh .standard Session.stillWorld) (busOpened ++ [sending]) event 0) := by
  intro n event
  refine ⟨⟨by decide, by decide⟩, ?_⟩
  obtain ⟨after, found, closed⟩ := bus_closes_iff .standard Session.stillWorld
    (busOpened ++ [sending]) event 0 ⟨⟨28673, 10, ""⟩, 99, Client.standardPatience⟩ (by decide)
    (by decide) (by decide)
  have gone : ((n.step event).1.clients.get? 0).map (·.bus) = some 0 := by decide
  refine ⟨after, found, ?_, closed⟩
  rw [found] at gone
  exact Option.some.inj gone

/-- A supply that the client selects while its bus is open. -/
def offered : Supply := ⟨43, 2, 0, 10, "taxi", .ofClock 0, "", 0, none⟩

/-- The selection is granted, and the exchange opens no bus for it. -/
theorem granted_selection_forgets_bus :
    let before := busOpened ++ [.operate 5 0 (.select offered)]
    let event : Event := .answer 3 (.ok (.confirmation ⟨true, 0, ""⟩))
    let n := ((fresh .standard Session.stillWorld).run before).1
    (n.clients.get? 0).map (·.bus) = some 99 ∧
      ((n.step event).1.clients.get? 0).map (·.bus) = some 0 ∧
      ¬ Closes (fresh .standard Session.stillWorld) before event 0 99 := by
  intro before event n
  refine ⟨by decide, by decide, ?_⟩
  -- No operation in the run is on the bus.
  have offBus : before.all fun
      | .operate _ _ operation => !operation.usesBus
      | _ => true := by decide
  rintro ⟨job, operation, c, request, reply, ⟨call, ⟨earlier, during, split, -⟩, -⟩, uses, -⟩
  have member : .operate job 0 operation ∈ before := by simp [split]
  have other := List.all_eq_true.mp offBus _ member
  simp [uses] at other

end Node

end ExchangeNode
