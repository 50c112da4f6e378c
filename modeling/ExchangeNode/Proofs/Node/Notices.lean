import ExchangeNode.Proofs.Broadcast
import ExchangeNode.Proofs.Node.Release
import ExchangeNode.Proofs.Session.Notices

/-!
# What the user of a node is told

A node tells its user what its session tells. After a registration in good order, and until the next
one begins, that ends with the news that the node has left its exchange. Unless the user has given
the identity up before, the node then has done so itself.
-/

namespace ExchangeNode.Node

/-- Whether a registration begins with an event. -/
def Event.registers : Event → Bool
  | .session event => event.registers
  | _ => false

/-- Whether the user gives the identity up with an event. -/
def Event.unregisters : Event → Bool
  | .session (.unregister _) => true
  | _ => false

/-- The node leaves its exchange, as it was ordered. -/
def Quits (n : Node) (event : Event) (order : HeartbeatReply) : Prop :=
  order.command = .serverChange ∧ ∃ seen, n.seen? event = some seen ∧ n.session.Quits seen order

/-- It does so having unregistered itself. -/
def Leaves (n : Node) (event : Event) (order : HeartbeatReply) : Prop :=
  order.command = .serverChange ∧ ∃ seen, n.seen? event = some seen ∧ n.session.Leaves seen order

/-- In a run, the node leaves its exchange. -/
def Departs (n : Node) (events : List Event) : Prop :=
  ∃ before event after, events = before ++ event :: after ∧
    ∃ order, (n.run before).1.Quits event order

/-- In a run, the node leaves its exchange, having unregistered itself. -/
def UnregistersItself (n : Node) (events : List Event) : Prop :=
  ∃ before event after, events = before ++ event :: after ∧
    ∃ order, (n.run before).1.Leaves event order

variable {n : Node} {event : Event} {events : List Event}

theorem departs_cons {rest : List Event} :
    n.Departs (event :: rest) ↔
      (∃ order, n.Quits event order) ∨ (n.step event).1.Departs rest := by
  rw [Departs, Session.exists_split_cons]
  rfl

theorem Departs.append (departs : n.Departs events) (more : List Event) :
    n.Departs (events ++ more) := by
  obtain ⟨before, event, after, rfl, quits⟩ := departs
  exact ⟨before, event, after ++ more, by simp, quits⟩

/-- The calls of the user reach the session as they are. -/
theorem session_or_passive {seen : Session.Event} (sees : n.seen? event = some seen) :
    event = .session seen ∨ (seen.registers = false ∧ ∀ job, seen ≠ .unregister job) := by
  cases event with
  | session =>
    cases sees
    exact .inl rfl
  | dialed | answer | timeout =>
    simp only [seen?] at sees
    split at sees
    · cases sees
    · cases sees
      exact .inr ⟨rfl, by simp⟩
  | elapse =>
    simp only [seen?] at sees
    split at sees
    · cases sees
      exact .inr ⟨rfl, by simp⟩
    · cases sees
  | abandon =>
    cases sees
    exact .inr ⟨rfl, by simp⟩
  | _ => cases sees

theorem calm_of_seen? {seen : Session.Event} (sees : n.seen? event = some seen)
    (calm : event.registers = false) : seen.registers = false := by
  obtain rfl | ⟨passive, -⟩ := session_or_passive sees
  · exact calm
  · exact passive

theorem kept_of_seen? {seen : Session.Event} (sees : n.seen? event = some seen)
    (kept : event.unregisters = false) (job : Nat) : seen ≠ .unregister job := by
  obtain rfl | ⟨-, passive⟩ := session_or_passive sees
  · rintro rfl
    cases kept
  · exact passive job

theorem not_quits_of_unseen (unseen : n.seen? event = none) (order : HeartbeatReply) :
    ¬ n.Quits event order := by
  rintro ⟨-, seen, sees, -⟩
  cases unseen.symm.trans sees

/-! ### One step -/

/-- What a session keeps while no registration begins, its node keeps too, if it is nothing that a
client could change. -/
theorem session_step (holds : Session → Prop)
    (kept : ∀ seen, n.seen? event = some seen → holds (n.session.step seen).1)
    (others : ∀ ids nextCall proposals,
      holds { n.session with ids, nextCall, proposals }) : holds (n.step event).1.session := by
  have course := n.step_course event
  generalize n.step event = turn at course
  cases course with
  | session errands sees => exact kept _ sees
  -- The other events are about clients.
  | takes ids nextCall => exact others ids nextCall n.session.proposals
  | concludes => exact others n.session.ids n.session.nextCall _

theorem enrolled_step (enrolled : n.session.Enrolled) (calm : event.registers = false) :
    (n.step event).1.session.Enrolled :=
  session_step Session.Enrolled
    (fun _ sees => Session.enrolled_step enrolled (calm_of_seen? sees calm))
    fun _ _ _ => ⟨enrolled.unasked, enrolled.single, enrolled.reached, enrolled.ordered⟩

theorem tenured_step (enrolled : n.session.Enrolled) (tenured : n.session.Tenured)
    (calm : event.registers = false) (kept : event.unregisters = false) :
    (n.step event).1.session.Tenured :=
  session_step Session.Tenured
    (fun _ sees => Session.tenured_step enrolled tenured (calm_of_seen? sees calm)
      (kept_of_seen? sees kept))
    fun _ _ _ => ⟨tenured.kept, tenured.live⟩

theorem expired_step (expired : n.session.Expired) (calm : event.registers = false) :
    (n.step event).1.session.Expired ∧
      (n.step event).1.session.commands = n.session.commands := by
  refine session_step (fun s => s.Expired ∧ s.commands = n.session.commands) ?_ ?_
  · exact fun _ sees => Session.expired_step expired (calm_of_seen? sees calm)
  · exact fun _ _ _ => ⟨⟨expired.unasked, expired.ended⟩, rfl⟩

theorem tells_step (enrolled : n.session.Enrolled) (event : Event) :
    n.session.Tells (n.Quits event) (n.step event).1.session := by
  have course := n.step_course event
  generalize n.step event = turn at course
  cases course with
  | @session seen errands sees =>
    have quits {order : HeartbeatReply} (quits : n.Quits event order) :
        n.session.Quits seen order := by
      obtain ⟨-, other, same, quits⟩ := quits
      cases sees.symm.trans same
      exact quits
    cases Session.tells_step enrolled seen with
    | nothing stays same => exact .nothing (fun order => stays order ∘ quits) same
    | warns stays notice sent => exact .warns (fun order => stays order ∘ quits) notice sent
    | quits quits ordered sent expired =>
      exact .quits ⟨ordered, seen, sees, quits⟩ ordered sent expired
  | takes _ _ _ _ unseen => exact .nothing (not_quits_of_unseen unseen) rfl
  | concludes _ _ _ unseen => exact .nothing (not_quits_of_unseen unseen) rfl

theorem trim_step (trim : n.session.commands.Trim) (event : Event) :
    (n.step event).1.session.commands.Trim := by
  refine session_step (·.commands.Trim) (fun seen _ => ?_) fun _ _ _ => trim
  have course := n.session.step_course seen
  generalize n.session.step seen = turn at course
  cases course with
  | publishes | movesAtOnce | leaves => exact Broadcast.trim_send trim _
  | _ => exact trim

theorem trim_run (options : KeepAliveOptions) (world : Surroundings) (events : List Event) :
    ((fresh options world).run events).1.session.commands.Trim :=
  run_invariant (·.session.commands.Trim) (fun _ event trim => trim_step trim event)
    Broadcast.trim_empty events

/-! ### After a registration -/

theorem enrolled_of_returned (settled : n.session.Settled) {job : Nat} {address : String}
    (returned : .finish job (.exchange address) ∈ (n.step event).2)
    (unasked : (n.step event).1.session.Unasked) : (n.step event).1.session.Enrolled := by
  obtain ⟨seen, -, session, finished⟩ := session_of_returned returned
  rw [session] at unasked ⊢
  exact Session.enrolled_of_returned settled (n.session.step_course seen) finished unasked

theorem tenured_of_returned (settled : n.session.Settled) {job : Nat} {address : String}
    (returned : .finish job (.exchange address) ∈ (n.step event).2)
    (kept : ∀ job wait, (n.step event).1.session.jobs.get? job ≠ some (.revoking wait)) :
    (n.step event).1.session.Tenured := by
  obtain ⟨seen, -, session, finished⟩ := session_of_returned returned
  rw [session] at kept ⊢
  exact Session.tenured_of_returned settled (n.session.step_course seen) finished kept

/-- Where the user does not give the identity up, the node does so before it leaves. -/
theorem unregistersItself_of_departs (enrolled : n.session.Enrolled)
    (tenured : n.session.Tenured) (calm : ∀ event ∈ events, event.registers = false)
    (kept : ∀ event ∈ events, event.unregisters = false) (departs : n.Departs events) :
    n.UnregistersItself events := by
  induction events generalizing n with
  | nil => simp [Departs] at departs
  | cons event rest ih =>
    rw [UnregistersItself, Session.exists_split_cons]
    obtain ⟨order, ordered, seen, sees, quits⟩ | later := departs_cons.mp departs
    · exact .inl ⟨order, ordered, seen, sees, Session.leaves_of_quits tenured quits⟩
    · have calmNow := calm event List.mem_cons_self
      exact .inr (ih (enrolled_step enrolled calmNow)
        (tenured_step enrolled tenured calmNow (kept event List.mem_cons_self))
        (fun next member => calm next (.tail _ member))
        (fun next member => kept next (.tail _ member)) later)

end ExchangeNode.Node
