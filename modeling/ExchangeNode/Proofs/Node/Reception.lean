import ExchangeNode.Proofs.Node.Ownership

/-!
# What a subscription passes on, and when it ends

A subscription takes one item after the other from its stream, while others lock and unlock the node
and turn the stop switch. Whether an item is passed on is decided by the lock at the moment when it
is taken, and nothing ends the subscription but what it takes and the switch.

`takings` are the items that a subscription takes in a run, each with the lock as it was then.
`subscription_passes_unlocked` says what comes of them, for every stream and every run.
-/

namespace ExchangeNode

/-! ### Stop switches -/

namespace StopSwitch

theorem callsOff_eq (s : StopSwitch) : s.callsOff = s.on := by
  obtain ⟨on, held⟩ := s
  cases on with
  | true => rfl
  | false =>
    cases held with
    | true | false => rfl

theorem after_of_letGo (on : Bool) (signals : List Signal) :
    signals.foldl after ⟨on, false⟩ = ⟨on, false⟩ := by
  induction signals with
  | nil => rfl
  | cons signal rest ih =>
    cases signal with
    | turn | letGo => exact ih

/-- What was done to a switch before it was let go of. -/
def whileHeld (signals : List Signal) : List Signal := signals.takeWhile (· ≠ .letGo)

theorem whileHeld_turn (on : Bool) (rest : List Signal) :
    whileHeld (.turn on :: rest) = .turn on :: whileHeld rest := rfl

theorem whileHeld_letGo (rest : List Signal) : whileHeld (.letGo :: rest) = [] := rfl

/-- Whether a switch was left on: the last thing that was done to it, while it was held, was to turn
it on. -/
def LeftOn (signals : List Signal) : Prop := (whileHeld signals).getLast? = some (.turn true)

instance (signals : List Signal) : Decidable (LeftOn signals) := by
  unfold LeftOn
  infer_instance

theorem on_after_iff (on : Bool) (signals : List Signal) :
    (signals.foldl after ⟨on, true⟩).on ↔
      LeftOn signals ∨ (whileHeld signals = [] ∧ on) := by
  -- The last turn decides, whatever the switch was before it; so the start varies.
  induction signals generalizing on with
  | nil => simp [LeftOn, whileHeld]
  | cons signal rest ih =>
    cases signal with
    | turn turned =>
      rw [List.foldl_cons, after, if_pos rfl, ih, LeftOn, LeftOn, whileHeld_turn]
      cases whileHeld rest with
      | nil => simp
      | cons => simp [List.getLast?_cons]
    | letGo => simp [LeftOn, whileHeld_letGo, after, after_of_letGo]

theorem callsOff_iff (signals : List Signal) :
    (signals.foldl after off).callsOff ↔ LeftOn signals := by
  rw [callsOff_eq, off, on_after_iff]
  simp

end StopSwitch

/-! ### Streams -/

/-- A stream: what it yields in turn, and whether it ends after that or stays open. -/
structure Source where
  elements : List (Except WireError Item)
  ends : Bool

/-- All that can be taken from a stream, up to its end. -/
def Source.yields (source : Source) : List (Option (Except WireError Item)) :=
  source.elements.map some ++ if source.ends then [none] else []

/-- What was taken from a stream, and whether the node was locked at that moment. -/
structure Taking where
  item : Option (Except WireError Item)
  locked : Bool

/-- The record that is passed on. A subscription that is guarded drops it while the node is
locked. -/
def Taking.passed? (guarded : Bool) (taking : Taking) : Option Item :=
  match taking.item with
  | some (.ok item) => if guarded && taking.locked then none else some item
  | _ => none

theorem zip_takings {takings : List Taking} {yields : List (Option (Except WireError Item))}
    (fed : takings.map Taking.item <+: yields) :
    List.zipWith Taking.mk yields (takings.map Taking.locked) = takings := by
  obtain ⟨rest, rfl⟩ := fed
  induction takings with
  | nil => simp
  | cons taking takings ih => simp [ih]

/-- What is left to do once a subscription has been accepted. -/
def Operation.subscription? : Operation → Option Pending
  | .subscribe side => some (.subscribed side)
  | .subscribeBus => some .subscribedBus
  | _ => none

namespace Node

/-- The records that are passed on for a job. -/
def delivered (job : Nat) (effects : List Effect) : List Item :=
  effects.filterMap fun
    | .deliver other item => if other = job then some item else none
    | _ => none

def isReceiving (n : Node) (job : Nat) : Bool :=
  match n.errands.get? job with
  | some (.receiving _ _) => true
  | _ => false

def taken? (n : Node) (job : Nat) : Event → Option Taking
  | .item other item =>
    if other = job && n.isReceiving job then some ⟨item, n.session.proposals.locked⟩ else none
  | _ => none

/-- All that a subscription takes in a run. -/
def takings (n : Node) (job : Nat) : List Event → List Taking
  | [] => []
  | event :: rest => (n.taken? job event).toList ++ (n.step event).1.takings job rest

/-- What a subscription that receives ends with at an event, by what was done to its switch. -/
def verdict? (job : Nat) (signals : List StopSwitch.Signal) : Event → Option Outcome
  | .item other none => if other = job then some .done else none
  | .item other (some (.error e)) => if other = job then some (.failed (.wire e)) else none
  | .heed other => if other = job ∧ StopSwitch.LeftOn signals then some .done else none
  | _ => none

variable {n : Node} {job number : Nat} {event : Event} {pending : Pending} {switch : StopSwitch}
  {effects : List Effect} {guarded : Bool}

theorem delivered_of_quiet (quiet : ∀ effect ∈ effects, effect.job? ≠ some job) :
    delivered job effects = [] := by
  simp only [delivered, List.filterMap_eq_nil_iff]
  intro effect member
  cases effect with
  | deliver other item =>
    have different : other ≠ job := fun same => quiet _ member (congrArg some same)
    simp [different]
  | _ => rfl

/-! ### One turn -/

theorem taken?_of_idle (idle : n.isReceiving job = false) : n.taken? job event = none := by
  cases event with
  | item => simp [taken?, idle]
  | _ => rfl

theorem isReceiving_of_get? (receiving : n.errands.get? job = some (.receiving guarded switch)) :
    n.isReceiving job = true := by
  simp [isReceiving, receiving]

/-- What an item does to a subscription that receives. -/
theorem item_turn (receiving : n.errands.get? job = some (.receiving guarded switch))
    (item : Option (Except WireError Item)) (signals : List StopSwitch.Signal) :
    delivered job (n.item job item).2 =
        (Taking.passed? guarded ⟨item, n.session.proposals.locked⟩).toList ∧
      outcomes job (n.item job item).2 = (verdict? job signals (.item job item)).toList ∧
      (n.item job item).1.isReceiving job = (verdict? job signals (.item job item)).isNone := by
  simp only [Node.item, receiving]
  cases item with
  | none => simp [finish, delivered, outcomes, verdict?, isReceiving, Taking.passed?]
  | some result =>
    cases result with
    | error e => simp [finish, delivered, outcomes, verdict?, isReceiving, Taking.passed?]
    | ok item =>
      cases dropped : guarded && n.session.proposals.locked with
      | true | false =>
        simp [dropped, delivered, outcomes, verdict?, isReceiving, receiving, Taking.passed?]

/-- When a subscription looks at its stop switch it ends, if the switch was left on. -/
theorem heed_turn {signals : List StopSwitch.Signal}
    (receiving : n.errands.get? job =
      some (.receiving guarded (signals.foldl StopSwitch.after .off))) :
    delivered job (n.heed job).2 = [] ∧
      outcomes job (n.heed job).2 = (verdict? job signals (.heed job)).toList ∧
      (n.heed job).1.isReceiving job = (verdict? job signals (.heed job)).isNone := by
  simp only [heed, receiving, StopSwitch.callsOff_iff]
  by_cases on : StopSwitch.LeftOn signals
  · simp [on, finish, delivered, outcomes, verdict?, isReceiving]
  · simp [on, delivered, outcomes, verdict?, isReceiving, receiving]

theorem verdict?_of_others {signals : List StopSwitch.Signal}
    (noItem : ∀ item, event ≠ .item job item) (unheeded : event ≠ .heed job) :
    verdict? job signals event = none := by
  cases event with
  | item other item =>
    have different : other ≠ job := fun same => noItem item (congrArg (Event.item · item) same)
    match item with
    | none | some (.error _) => simp [verdict?, different]
    | some (.ok _) => rfl
  | heed other =>
    have different : other ≠ job := fun same => unheeded (congrArg Event.heed same)
    simp [verdict?, different]
  | _ => rfl

theorem get?_of_isReceiving (underway : Underway job number pending switch n)
    (receiving : n.isReceiving job) :
    n.errands.get? job = some (.receiving pending.isGuarded switch) := by
  simp only [isReceiving] at receiving
  split at receiving
  next found =>
    obtain ⟨wait, same⟩ | ⟨-, same⟩ := underway.errand _ found
    · cases same
    · rw [found, same]
  next => cases receiving

/-- A subscription that receives ends with what it takes or by its switch, or receives on. -/
theorem receiving_turn {signals : List StopSwitch.Signal}
    (underway : Underway job number pending (signals.foldl StopSwitch.after .off) n)
    (unnamed : event.job? ≠ some job) (receiving : n.isReceiving job) :
    outcomes job (n.step event).2 = (verdict? job signals event).toList ∧
      (n.step event).1.isReceiving job = (verdict? job signals event).isNone := by
  have found := get?_of_isReceiving underway receiving
  -- What it neither takes nor heeds is not about it, so it receives on.
  obtain ⟨item, rfl⟩ | rfl | ⟨noItem, unheeded⟩ := takes_or_heeds job event
  · exact (item_turn found item signals).2
  · exact (heed_turn found).2
  · obtain ⟨still, quiet⟩ := receives_on underway.stranger unnamed found noItem unheeded
    rw [verdict?_of_others noItem unheeded]
    exact ⟨outcomes_of_quiet quiet, isReceiving_of_get? still⟩

/-- The end of a call delivers nothing. -/
theorem delivered_errandAnswered (n : Node) (other : Nat) (errand : Errand)
    (reply : Option Reply) : delivered job (n.errandAnswered other errand reply).2 = [] := by
  cases errand with
  | dialing | receiving => rfl
  | asking =>
    simp only [errandAnswered]
    split
    · rfl
    · split <;> rfl

theorem delivered_heed (n : Node) (other : Nat) : delivered job (n.heed other).2 = [] := by
  simp only [heed]
  split
  · split <;> rfl
  · rfl

theorem taken?_of_noItem (noItem : ∀ item, event ≠ .item job item) :
    n.taken? job event = none := by
  cases event with
  | item other item =>
    have different : other ≠ job := fun same => noItem item (congrArg (Event.item · item) same)
    simp [taken?, different]
  | _ => rfl

theorem toList_eq_filterMap {α β : Type} (f : α → Option β) (a : α) :
    (f a).toList = [a].filterMap f := by
  cases made : f a with
  | none | some => simp [made]

/-- What is passed on in a turn is what is taken in it. -/
theorem delivered_step (underway : Underway job number pending switch n)
    (unnamed : event.job? ≠ some job) :
    delivered job (n.step event).2 =
      (n.taken? job event).toList.filterMap (Taking.passed? pending.isGuarded) := by
  have stranger := underway.stranger
  cases found : n.errands.get? job with
  | none =>
    rw [taken?_of_idle (by simp [isReceiving, found])]
    exact delivered_of_quiet (rests stranger unnamed found).2
  | some errand =>
    obtain ⟨wait, rfl⟩ | ⟨-, rfl⟩ := underway.errand errand found
    · rw [taken?_of_idle (by simp [isReceiving, found])]
      obtain ⟨errand, reply, hears⟩ | unheard := hears_or_not n job event
      · obtain ⟨-, -, -, turn⟩ := errandHears?_spec hears
        rw [turn]
        exact delivered_errandAnswered n job errand reply
      · exact delivered_of_quiet (asks_on stranger unnamed found unheard).2
    · obtain ⟨item, rfl⟩ | rfl | ⟨noItem, unheeded⟩ := takes_or_heeds job event
      · have takes : n.taken? job (.item job item) = some ⟨item, n.session.proposals.locked⟩ := by
          simp [taken?, isReceiving_of_get? found]
        rw [step, (item_turn found item []).1, takes, Option.toList_some]
        exact toList_eq_filterMap _ _
      · rw [taken?_of_noItem (by simp)]
        exact delivered_heed n job
      · rw [taken?_of_noItem noItem]
        exact delivered_of_quiet (receives_on stranger unnamed found noItem unheeded).2

/-! ### Whole runs -/

theorem delivered_append (job : Nat) (first more : List Effect) :
    delivered job (first ++ more) = delivered job first ++ delivered job more :=
  List.filterMap_append

theorem delivered_run (underway : Underway job number pending switch n) {events : List Event}
    (own : ∀ event ∈ events, event.job? ≠ some job) :
    delivered job (n.run events).2 =
      (n.takings job events).filterMap (Taking.passed? pending.isGuarded) := by
  induction events generalizing n switch with
  | nil => rfl
  | cons event rest ih =>
    have unnamed := own event List.mem_cons_self
    have rested := ih (underway_step underway unnamed)
      fun later member => own later (List.mem_cons_of_mem event member)
    rw [run_cons, delivered_append, delivered_step underway unnamed, rested, takings,
      List.filterMap_append]

/-- To begin an operation delivers nothing. -/
theorem delivered_operate (n : Node) (other client : Nat) (operation : Operation) :
    delivered job (n.operate other client operation).2 = [] := by
  simp only [operate]
  split
  · rfl
  · split <;> rfl

theorem underway_of_subscription {operation : Operation}
    (subscribes : operation.subscription? = some pending)
    (stranger : n.session.jobs.get? job = none) (new : n.errands.get? job = none) :
    Underway job number pending .off (n.step (.operate job number operation)).1 := by
  apply underway_of_operate stranger new
  intro c request p ids found begins
  cases operation with
  | subscribe =>
    cases subscribes
    cases begins
    rfl
  | subscribeBus =>
    cases subscribes
    simp only [Client.begin, bind, Except.bind] at begins
    split at begins
    · cases begins
    · cases begins
      rfl
  | _ => cases subscribes

/-- A subscription passes on exactly the records that it takes while the node is unlocked, in the
order of its stream and each one once; the subscription of a bus passes on all of them. It ends well
when it takes the end of the stream or when it looks at its stop switch and the switch was left on,
with an error when it takes one, and in no other way, whatever else goes on. -/
theorem subscription_passes_unlocked (n : Node) (job number : Nat) (operation : Operation)
    (pending : Pending) (subscribes : operation.subscription? = some pending)
    (stranger : n.session.jobs.get? job = none) (new : n.errands.get? job = none)
    (events : List Event) (own : ∀ event ∈ events, event.job? ≠ some job) (source : Source)
    (fed : (n.takings job (.operate job number operation :: events)).map Taking.item <+:
      source.yields) :
    delivered job (n.run (.operate job number operation :: events)).2 =
        (List.zipWith Taking.mk source.yields
          ((n.takings job (.operate job number operation :: events)).map Taking.locked)).filterMap
          (Taking.passed? pending.isGuarded) ∧
      ∀ before event after, events = before ++ event :: after →
        (n.run (.operate job number operation :: before)).1.isReceiving job →
        outcomes job ((n.run (.operate job number operation :: before)).1.step event).2 =
            (verdict? job (signals job before) event).toList ∧
          ((n.run (.operate job number operation :: before)).1.step event).1.isReceiving job =
            (verdict? job (signals job before) event).isNone := by
  have begun : Underway job number pending .off (n.step (.operate job number operation)).1 :=
    underway_of_subscription subscribes stranger new
  refine ⟨?_, ?_⟩
  -- The takings are a prefix of the stream, each with its lock, and what is passed on is theirs.
  · rw [zip_takings fed, run_cons, delivered_append, delivered_run begun own, takings,
      List.filterMap_append]
    have silent : delivered job (n.step (.operate job number operation)).2 = [] :=
      delivered_operate n job number operation
    rw [silent]
    rfl
  -- At each event the switch is as the signals before it have left it.
  · rintro before event after rfl receiving
    have underway := underway_run begun
      fun earlier member => own earlier (List.mem_append_left _ member)
    exact receiving_turn underway (own event (by simp)) receiving

/-- A node that has opened a client. -/
def opened : Node :=
  ((fresh .standard Session.stillWorld).run
    [.session (.reseed 7), .connect 1 0 10 "" Client.standardPatience]).1

/-- A supply on the client's channel. -/
def taxi (id : UInt64) : Supply := ⟨id, 2, 0, 10, "taxi", .ofClock 0, "", 0, none⟩

/-- The second supply comes while the node is locked, the third one when the subscription has been
called off and nobody holds its switch any more, but before it looks at it. -/
def lockedMeanwhile : List Event :=
  [.answer 0 (.ok (.ack .done)), .item 2 (some (.ok (.advert (taxi 1)))), .session .lock,
    .item 2 (some (.ok (.advert (taxi 2)))), .session .reset, .signal 2 (.turn true),
    .signal 2 .letGo, .item 2 (some (.ok (.advert (taxi 3))))]

theorem subscription_passes_first_and_third :
    let all := .operate 2 0 (.subscribe .supply) :: (lockedMeanwhile ++ [.heed 2])
    opened.session.jobs.get? 2 = none ∧ opened.errands.get? 2 = none ∧
      delivered 2 (opened.run all).2 = [.advert (taxi 1), .advert (taxi 3)] ∧
      (opened.run (.operate 2 0 (.subscribe .supply) :: lockedMeanwhile)).1.isReceiving 2 ∧
      outcomes 2 ((opened.run (.operate 2 0 (.subscribe .supply) :: lockedMeanwhile)).1.step
        (.heed 2)).2 = [.done] := by
  intro all
  have fed : (opened.takings 2 all).map Taking.item <+: Source.yields
      ⟨[.ok (.advert (taxi 1)), .ok (.advert (taxi 2)), .ok (.advert (taxi 3))], false⟩ :=
    ⟨[], rfl⟩
  obtain ⟨passes, turns⟩ := subscription_passes_unlocked opened 2 0 (.subscribe .supply) _ rfl
    (by decide) (by decide) _ (by decide) _ fed
  have receiving : (opened.run
      (.operate 2 0 (.subscribe .supply) :: lockedMeanwhile)).1.isReceiving 2 := by decide
  obtain ⟨ends, -⟩ := turns lockedMeanwhile (.heed 2) [] rfl receiving
  exact ⟨by decide, by decide, passes.trans rfl, receiving, ends.trans (by decide)⟩

end Node

end ExchangeNode
