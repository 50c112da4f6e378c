import ExchangeNode.CommandLine.Execution
import ExchangeNode.Proofs.Node.Buses
import ExchangeNode.Proofs.Session.Tenure

/-!
# What the world does to the node of a command

An event of the world reaches the session of a node as it is, or it is about the one errand that a
command has its node run. The errand is to reach the exchange at first, and then what the client was
opened for; in between and afterwards there is none.
-/

namespace ExchangeNode

/-- Records are not for a session to deliver. -/
theorem Session.not_deliver (s : Session) (event : Event) (job : Nat) (item : Item) :
    .deliver job item ∉ (s.step event).2 := by
  have course := s.step_course event
  generalize s.step event = turn at course
  cases course with
  | _ => simp [finish, jobCalls, loopCalls, apply]

namespace Node

/-- What an event of the world does to the errands of a node. -/
inductive Errands (n : Node) : Turn → Prop where
  | idles : Errands n (n, [])
  | connects {job client channelType argument patience}
      (dialing : n.errands.get? job = some (.dialing client channelType argument patience)) :
      Errands n (n.connect job client channelType argument patience)
  | undialed {job client channelType argument patience error}
      (dialing : n.errands.get? job = some (.dialing client channelType argument patience)) :
      Errands n (n.finish job (.failed error))
  | answered {job client pending wait switch} (reply : Option Reply)
      (asking : n.errands.get? job = some (.asking client pending wait switch)) :
      Errands n (n.errandAnswered job (.asking client pending wait switch) reply)
  | receives {job guarded switch effects}
      (receiving : n.errands.get? job = some (.receiving guarded switch))
      (pulls : effects = [.pull job] ∨ ∃ item, effects = [.deliver job item, .pull job]) :
      Errands n (n, effects)
  | ends {job guarded switch} (outcome : Outcome)
      (receiving : n.errands.get? job = some (.receiving guarded switch)) :
      Errands n (n.finish job outcome)

variable {n : Node} {event : Event} {seen : Session.Event}

theorem errands_of_unseen (worldly : event.isWorldly) (unseen : n.seen? event = none) :
    Errands n (n.step event) := by
  have waits {call job : Nat} {errand : Errand} (reply : Option Reply)
      (found : n.errandWaiting? call = some (job, errand)) :
      Errands n (n.errandAnswered job errand reply) := by
    obtain ⟨client, pending, wait, switch, rfl, -, asking⟩ := errandWaiting?_spec found
    exact .answered reply asking
  cases event with
  | session | abandon => cases unseen
  | dial | connect | operate | signal => cases worldly
  | dialed job result =>
    simp only [step, dialed]
    split
    next dialing => exact .connects dialing
    next dialing => exact .undialed dialing
    next result _ _ reached failed =>
      simp only [seen?] at unseen
      split at unseen
      next dialing =>
        cases result with
        | ok => exact (reached _ _ _ _ dialing rfl).elim
        | error => exact (failed _ _ _ _ _ dialing rfl).elim
      · cases unseen
  | answer call reply =>
    simp only [step, answer]
    split
    next found => exact waits _ found
    next free => simp [seen?, free] at unseen
  | timeout call =>
    simp only [step, timeout]
    split
    next found =>
      split
      · exact waits _ found
      · exact .idles
    next free => simp [seen?, free] at unseen
  | item job item =>
    simp only [step, Node.item]
    split
    next receiving =>
      split
      · exact .ends _ receiving
      · exact .ends _ receiving
      · split
        · exact .receives receiving (.inl rfl)
        · exact .receives receiving (.inr ⟨_, rfl⟩)
    · exact .idles
  | heed job =>
    simp only [step, heed]
    split
    next receiving =>
      split
      · exact .ends _ receiving
      · exact .idles
    · exact .idles
  | elapse millis =>
    simp only [seen?] at unseen
    split at unseen
    · cases unseen
    next beyond =>
      simp only [step, elapse, if_neg beyond]
      exact .idles

theorem step_of_seen (worldly : event.isWorldly) (sees : n.seen? event = some seen) :
    seen.isWorldly ∧ n.step event = n.ofSession (n.session.step seen) := by
  cases event with
  | session event =>
    cases sees
    refine ⟨?_, rfl⟩
    cases seen with
    | answer | timeout | wake | heed | proceed | release | setClock | setRandom | setLoad => rfl
    | _ => cases worldly
  | dialed job result =>
    simp only [seen?] at sees
    split at sees
    · cases sees
    next free =>
      cases sees
      refine ⟨rfl, ?_⟩
      simp only [step, dialed]
      split
      next dialing => exact (free _ _ _ _ dialing).elim
      next dialing => exact (free _ _ _ _ dialing).elim
      · rfl
  | answer call reply =>
    simp only [seen?] at sees
    split at sees
    · cases sees
    next free =>
      cases sees
      refine ⟨rfl, ?_⟩
      simp only [step, answer, free]
      rfl
  | timeout call =>
    simp only [seen?] at sees
    split at sees
    · cases sees
    next free =>
      cases sees
      refine ⟨rfl, ?_⟩
      simp only [step, timeout, free]
  | elapse millis =>
    simp only [seen?] at sees
    split at sees
    next within =>
      cases sees
      refine ⟨rfl, ?_⟩
      simp only [step, elapse, if_pos within]
      rfl
    · cases sees
  | abandon => cases worldly
  | _ => cases sees

/-- The identity that an event brings to a node. -/
def grants (n : Node) (event : Event) : List Identity :=
  ((n.seen? event).bind n.session.taken?).toList

/-- No errand is under way. -/
def Free (n : Node) : Prop := ∀ job, n.errands.get? job = none

/-- The only errand under way is to reach the exchange. -/
def Dialing (n : Node) : Prop :=
  ∀ job errand, n.errands.get? job = some errand → job = Execution.openJob ∧
    ∃ channelType argument patience,
      errand = .dialing Execution.client channelType argument patience

/-- The only errand under way is what the client was opened for. -/
def Operating (n : Node) : Prop :=
  ∀ job errand, n.errands.get? job = some errand → job = Execution.operateJob ∧
    ((∃ client pending wait switch, errand = .asking client pending wait switch) ∨
      ∃ guarded switch, errand = .receiving guarded switch)

/-- A node without errands has no records to deliver, and the world gives it no errand. -/
theorem Free.step (free : n.Free) (worldly : event.isWorldly) :
    (n.step event).1.Free ∧ ∀ job item, .deliver job item ∉ (n.step event).2 := by
  cases sees : n.seen? event with
  | none =>
    have errands := errands_of_unseen worldly sees
    generalize n.step event = turn at errands
    cases errands with
    | idles => exact ⟨free, by simp⟩
    | connects found | undialed found | answered _ found | receives found | ends _ found =>
      rw [free] at found
      cases found
  | some seen =>
    obtain ⟨-, turn⟩ := step_of_seen worldly sees
    rw [turn]
    exact ⟨free, n.session.not_deliver seen⟩

theorem Free.signal (free : n.Free) (job : Nat) (signal : StopSwitch.Signal) :
    Free { n with errands := n.errands.modify job (·.signal signal) } := by
  intro other
  simp [free other]

theorem errand_of_signal {job other : Nat} {signal : StopSwitch.Signal} {errand : Errand}
    (found : (n.errands.modify job (·.signal signal)).get? other = some errand) :
    ∃ before, n.errands.get? other = some before ∧
      (errand = before ∨ errand = before.signal signal) := by
  rw [Table.get?_modify] at found
  split at found
  · obtain ⟨before, isErrand, rfl⟩ := Option.map_eq_some_iff.mp found
    exact ⟨before, isErrand, .inr rfl⟩
  · exact ⟨errand, found, .inl rfl⟩

theorem Dialing.signal (dialing : n.Dialing) (job : Nat) (signal : StopSwitch.Signal) :
    Dialing { n with errands := n.errands.modify job (·.signal signal) } := by
  intro other errand found
  obtain ⟨before, isErrand, same⟩ := errand_of_signal found
  obtain ⟨rfl, channelType, argument, patience, rfl⟩ := dialing other before isErrand
  rcases same with rfl | rfl
  · exact ⟨rfl, _, _, _, rfl⟩
  · exact ⟨rfl, _, _, _, rfl⟩

theorem Operating.signal (operating : n.Operating) (job : Nat) (signal : StopSwitch.Signal) :
    Operating { n with errands := n.errands.modify job (·.signal signal) } := by
  intro other errand found
  obtain ⟨before, isErrand, same⟩ := errand_of_signal found
  obtain ⟨rfl, ⟨client, pending, wait, switch, rfl⟩ | ⟨guarded, switch, rfl⟩⟩ :=
    operating other before isErrand
  · rcases same with rfl | rfl
    · exact ⟨rfl, .inl ⟨_, _, _, _, rfl⟩⟩
    · exact ⟨rfl, .inl ⟨_, _, _, _, rfl⟩⟩
  · rcases same with rfl | rfl
    · exact ⟨rfl, .inr ⟨_, _, rfl⟩⟩
    · exact ⟨rfl, .inr ⟨_, _, rfl⟩⟩

theorem free_of_finish {job : Nat}
    (only : ∀ other errand, n.errands.get? other = some errand → other = job) (outcome : Outcome) :
    (n.finish job outcome).1.Free := by
  intro other
  cases left : (n.errands.erase job).get? other with
  | none => exact left
  | some errand =>
    obtain ⟨different, before⟩ := Table.of_get?_erase left
    exact absurd (only other errand before) different

end Node

end ExchangeNode
