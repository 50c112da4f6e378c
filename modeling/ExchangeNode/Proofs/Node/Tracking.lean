import ExchangeNode.Proofs.Node.Course
import ExchangeNode.Proofs.Session.Moving

/-!
# Proposals that stay tracked

What is proposed under a registration should stay tracked until it is settled, the user forgets it,
the node registers again, or the directory orders it away in answer to a heartbeat of that very
registration. A registration waits for the loops of those before, so that none of them is left to
obey an order that came too late. It does not wait before it calls a release off, though: a loop
that obeys an order on its way to its end arms a release that outlives it.

`cause_of_lost` gives the reason for each proposal that leaves, as far as nothing of the past is
still under way.
-/

namespace ExchangeNode

/-- Whether an event comes from the user of a session alone, or from its timer. -/
def Session.Event.isOwn : Session.Event → Bool
  | .retire _ | .reset | .release => true
  | _ => false

namespace Node

/-! ### Why a proposal leaves -/

/-- The answer that an event brings. -/
def Event.reply? : Event → Option (Nat × Reply)
  | .answer call reply | .session (.answer call reply) => some (call, reply)
  | _ => none

/-- After some events of a run, an event answers a heartbeat sent in that run with the order to
move. -/
def Orders (n : Node) (before : List Event) (event : Event) (order : HeartbeatReply) : Prop :=
  order.command = .serverChange ∧ ∃ call heartbeat,
    .call call (.keepAlive heartbeat) ∈ (n.run before).2 ∧
      event.reply? = some (call, .ok (.heartbeat order))

/-- A heartbeat sent in the run was answered with the order to move. -/
def Ordered (n : Node) (events : List Event) (order : HeartbeatReply) : Prop :=
  ∃ before event after, events = before ++ event :: after ∧ n.Orders before event order

/-- A release was armed by the order to move that answered a heartbeat sent in the run. -/
def Armed (n : Node) (events : List Event) (due : Nat) : Prop :=
  ∃ before event after order, events = before ++ event :: after ∧ n.Orders before event order ∧
    ((n.run before).1.step event).1.session.release = some due

/-- The reasons for which an event after a run may take proposals with an id away. -/
inductive Cause (n : Node) (since : List Event) (id : UInt64) (event : Event) : Prop where
  | retired (retires : event = .session (.retire id))
  | reset (resets : event = .session .reset)
  | confirmed {call job client matched wait switch ack}
      (confirming : (n.run since).1.errandWaiting? call =
        some (job, .asking client (.confirmed matched (some id)) wait switch))
      (answered : event.ended? = some (call, some (.ok (.ack ack)))) (granted : ack.ok)
  | registered {job address}
      (returned : .finish job (.exchange address) ∈ ((n.run since).1.step event).2)
  | moved {seen order} (sees : (n.run since).1.seen? event = some seen)
      (leaves : (n.run since).1.session.Leaves seen order) (ordered : n.Ordered since order)
  | released {due} (releases : event = .session .release)
      (pending : (n.run since).1.session.release = some due) (armed : n.Armed since due)

/-- Whatever happens to a node from now on, proposals leave for one of these reasons only. -/
def KeepsProposals (n : Node) : Prop :=
  ∀ since event id,
    ((n.run since).1.step event).1.session.proposals.copies id <
      (n.run since).1.session.proposals.copies id →
    Cause n since id event

/-- In a run so far, the loops wait for answers to heartbeats of the run, and obey orders that were
given in it. -/
structure Current (n : Node) (since : List Event) : Prop where
  beating : ∀ loop l wait, (n.run since).1.session.loops.get? loop = some l →
    l.stage = .beating wait → ∃ heartbeat, .call wait.call (.keepAlive heartbeat) ∈ (n.run since).2
  moving : ∀ loop l wait order, (n.run since).1.session.loops.get? loop = some l →
    l.stage = .moving wait order → n.Ordered since order
  release : ∀ due, (n.run since).1.session.release = some due → n.Armed since due

variable {n : Node} {since : List Event} {event : Event} {turn : Turn}

/-! ### One more event -/

theorem ordered_concat {order : HeartbeatReply} (ordered : n.Ordered since order) (event : Event) :
    n.Ordered (since ++ [event]) order := by
  obtain ⟨before, answer, after, rfl, orders⟩ := ordered
  exact ⟨before, answer, after ++ [event], by simp, orders⟩

theorem armed_concat {due : Nat} (armed : n.Armed since due) (event : Event) :
    n.Armed (since ++ [event]) due := by
  obtain ⟨before, answer, after, order, rfl, orders, arms⟩ := armed
  exact ⟨before, answer, after ++ [event], order, by simp, orders, arms⟩

/-- The session sees what the user does to it only if the user does it. -/
theorem eq_session_of_seen? {seen : Session.Event} (sees : n.seen? event = some seen)
    (own : seen.isOwn) : event = .session seen := by
  cases event with
  | session other =>
    cases sees
    rfl
  | dialed | answer | timeout =>
    simp only [seen?] at sees
    split at sees
    · cases sees
    · cases sees
      cases own
  | elapse =>
    simp only [seen?] at sees
    split at sees
    · cases sees
      cases own
    · cases sees
  | abandon =>
    cases sees
    cases own
  | _ => cases sees

/-- An event that the session sees as an answer is one. -/
theorem reply?_of_seen? {call : Nat} {reply : Reply}
    (sees : n.seen? event = some (.answer call reply)) : event.reply? = some (call, reply) := by
  cases event with
  | session seen =>
    cases sees
    rfl
  | answer other given =>
    simp only [seen?] at sees
    split at sees
    · cases sees
    · cases sees
      rfl
  | dialed | timeout | elapse =>
    simp only [seen?] at sees
    split at sees <;> cases sees
  | _ => cases sees

/-- A loop obeys an order that answers a heartbeat of the run. -/
theorem orders_of_obeys (current : Current n since) {seen : Session.Event} {order : HeartbeatReply}
    (sees : (n.run since).1.seen? event = some seen)
    (obeys : (n.run since).1.session.Obeys seen order) : n.Orders since event order := by
  obtain ⟨loop, l, wait, found, beating, rfl, ordered⟩ := Session.obeys_spec obeys
  obtain ⟨heartbeat, sent⟩ := current.beating loop l wait found beating
  exact ⟨ordered, wait.call, heartbeat, sent, reply?_of_seen? sees⟩

/-- An event that leaves the loops and the release as they are changes nothing about the past. -/
theorem current_of_kept (current : Current n since)
    (loops : ((n.run since).1.step event).1.session.loops = (n.run since).1.session.loops)
    (release : ((n.run since).1.step event).1.session.release = (n.run since).1.session.release) :
    Current n (since ++ [event]) where
  beating loop l wait found stage := by
    rw [run_concat, loops] at found
    obtain ⟨heartbeat, sent⟩ := current.beating loop l wait found stage
    exact ⟨heartbeat, by rw [run_concat]; exact List.mem_append_left _ sent⟩
  moving loop l wait order found stage := by
    rw [run_concat, loops] at found
    exact ordered_concat (current.moving loop l wait order found stage) event
  release due pending := by
    rw [run_concat, release] at pending
    exact armed_concat (current.release due pending) event

theorem current_of_seen (current : Current n since) {seen : Session.Event} {errands : Table Errand}
    (sees : (n.run since).1.seen? event = some seen)
    (turn : (n.run since).1.step event =
      ({ (n.run since).1 with session := ((n.run since).1.session.step seen).1, errands },
        ((n.run since).1.session.step seen).2)) : Current n (since ++ [event]) := by
  have course := (n.run since).1.session.step_course seen
  refine ⟨?_, ?_, ?_⟩
  · intro loop l wait found stage
    rw [run_concat, turn] at found ⊢
    obtain ⟨m, before, same⟩ | reached := Session.stage_course course found
    · obtain ⟨heartbeat, sent⟩ := current.beating loop m wait before (same.trans stage)
      exact ⟨heartbeat, List.mem_append_left _ sent⟩
    -- The loop has just sent its heartbeat.
    · rw [stage] at reached
      cases reached with
      | rests free => cases free
      | beats sent => exact ⟨_, List.mem_append_right _ sent⟩
  · intro loop l wait order found stage
    rw [run_concat, turn] at found
    obtain ⟨m, before, same⟩ | reached := Session.stage_course course found
    · exact ordered_concat (current.moving loop m wait order before (same.trans stage)) event
    -- The loop has just heard its order, in answer to a heartbeat of the run.
    · rw [stage] at reached
      cases reached with
      | rests free => cases free
      | moves _ obeys => exact ⟨since, event, [], rfl, orders_of_obeys current sees obeys⟩
  · intro due pending
    rw [run_concat] at pending
    have armed := pending
    rw [turn] at pending
    obtain before | ⟨order, obeys⟩ := Session.release_course course pending
    · exact armed_concat (current.release due before) event
    · exact ⟨since, event, [], order, rfl, orders_of_obeys current sees obeys, armed⟩

theorem current_concat (current : Current n since) (event : Event) :
    Current n (since ++ [event]) := by
  have course := (n.run since).1.step_course event
  generalize turn : (n.run since).1.step event = after at course
  cases course with
  | session errands sees => exact current_of_seen current sees turn
  | takes => exact current_of_kept current (by rw [turn]) (by rw [turn])
  | concludes => exact current_of_kept current (by rw [turn]) (by rw [turn])

theorem current_append (current : Current n since) (more : List Event) :
    Current n (since ++ more) := by
  induction more generalizing since with
  | nil => rwa [List.append_nil]
  | cons event rest ih =>
    have later := ih (current_concat current event)
    rwa [List.append_assoc] at later

/-- No loop waits for the answer to a heartbeat, or leaves by an order. -/
def Quiet (n : Node) : Prop :=
  ∀ loop l, n.session.loops.get? loop = some l →
    (∀ wait, l.stage ≠ .beating wait) ∧ ∀ wait order, l.stage ≠ .moving wait order

theorem current_nil (quiet : Quiet n) (idle : n.session.release = none) : Current n [] where
  beating loop l wait found stage := absurd stage ((quiet loop l found).1 wait)
  moving loop l wait order found stage := absurd stage ((quiet loop l found).2 wait order)
  release due pending := by
    rw [show n.session.release = some due from pending] at idle
    cases idle

/-- What an event of the run takes away, it takes away for a reason. -/
theorem cause_of_lost (current : Current n since) {id : UInt64}
    (lost : ((n.run since).1.step event).1.session.proposals.copies id <
      (n.run since).1.session.proposals.copies id) : Cause n since id event := by
  have course := (n.run since).1.step_course event
  generalize turn : (n.run since).1.step event = after at course lost
  cases course with
  | session errands sees =>
    cases Session.loses_course ((n.run since).1.session.step_course _) lost with
    | retires => exact .retired (eq_session_of_seen? sees rfl)
    | resets => exact .reset (eq_session_of_seen? sees rfl)
    | registers returned => exact .registered (by rw [turn]; exact returned)
    | leaves leaves =>
      obtain ⟨loop, l, wait, reply, hears, moving⟩ := leaves
      have ordered := current.moving loop l wait _ (Session.loopHears?_spec hears).1 moving
      exact .moved sees ⟨loop, l, wait, reply, hears, moving⟩ ordered
    | releases pending =>
      exact .released (eq_session_of_seen? sees rfl) pending (current.release _ pending)
  | takes => exact absurd lost (Nat.lt_irrefl _)
  | @concludes call reply job client pending wait switch _ c clients errands _ _ ends asking =>
    obtain ⟨change, -⟩ := c.conclude_change (n.run since).1.session.proposals pending reply
    simp only at lost
    generalize (c.conclude (n.run since).1.session.proposals pending reply).2.1 = after
      at change lost
    -- Of all calls of clients only a confirmation that was granted takes a proposal away.
    cases change with
    | none => exact absurd lost (Nat.lt_irrefl _)
    | tracks advert => exact absurd lost (Nat.not_lt.mpr (Proposals.copies_le_track _ advert id))
    | @retires matched other ack confirms answered granted =>
      by_cases same : other = id
      · subst same confirms answered
        exact .confirmed asking ends granted
      · rw [Proposals.copies_retire same] at lost
        exact absurd lost (Nat.lt_irrefl _)

/-- Where nothing of the past is under way, all that goes on from now on has its reasons. -/
theorem keepsProposals_of_quiet (quiet : Quiet n) (idle : n.session.release = none) :
    KeepsProposals n := by
  intro since event id lost
  have current := current_append (current_nil quiet idle) since
  rw [List.nil_append] at current
  exact cause_of_lost current lost

end Node

end ExchangeNode
