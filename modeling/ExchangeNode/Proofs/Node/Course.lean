import ExchangeNode.Node.Step

/-!
# The course of a node

An event of a node reaches its session, or it is about a client. A client takes ids and numbers for
its calls from the session, and changes nothing else of it but the proposals.
-/

namespace ExchangeNode

/-! ### What clients do to the proposals -/

namespace Client

variable {c c' : Client} {p p' : Proposals} {pending : Pending} {outcome : Outcome}

/-- What the end of a call of a client does to the proposals. -/
inductive Change (p : Proposals) (pending : Pending) (reply : Option Reply) : Proposals → Prop where
  | none : Change p pending reply p
  | tracks {side} (advert : Advert side) : Change p pending reply (p.track advert)
  | retires {matched id ack} (confirms : pending = .confirmed matched (some id))
      (answered : reply = some (.ok (.ack ack))) (granted : ack.ok) :
      Change p pending reply (p.retire id)

/-- An answer that settles a call is of the kind that was expected. -/
theorem eq_of_settled {α : Type} {result : Except WireError α}
    {f : α → Client × Proposals × Outcome}
    (settled : (do let answer ← result; return f answer) = .ok (c', p', outcome)) :
    ∃ answer, result = .ok answer ∧ f answer = (c', p', outcome) := by
  cases result with
  | error e => cases settled
  | ok answer => exact ⟨answer, rfl, Except.ok.inj settled⟩

theorem settle_change {response : Response}
    (settled : c.settle p response pending = .ok (c', p', outcome)) :
    Change p pending (some (.ok response)) p' ∧ ∀ address, outcome ≠ .exchange address := by
  cases pending with
  | notified | sent | closed =>
    obtain ⟨ack, -, same⟩ := eq_of_settled settled
    split at same
    · cases same
      exact ⟨.none, nofun⟩
    · cases same
      exact ⟨.none, nofun⟩
  | proposed advert =>
    obtain ⟨ack, -, same⟩ := eq_of_settled settled
    split at same
    · cases same
      exact ⟨.tracks advert, nofun⟩
    · cases same
      exact ⟨.none, nofun⟩
  | selected side =>
    cases side with
    | supply | demand =>
      obtain ⟨confirmation, -, same⟩ := eq_of_settled settled
      split at same
      · cases same
        exact ⟨.none, nofun⟩
      · cases same
        exact ⟨.none, nofun⟩
  | confirmed id proposal =>
    obtain ⟨ack, expected, same⟩ := eq_of_settled settled
    -- Only an acknowledgment is expected here.
    have answered : response = .ack ack := by
      cases response with
      | ack given =>
        cases expected
        rfl
      | _ => cases expected
    split at same
    next granted =>
      cases same
      cases proposal with
      | none => exact ⟨.none, nofun⟩
      | some proposal => exact ⟨.retires rfl (by rw [answered]) granted, nofun⟩
    next =>
      cases same
      exact ⟨.none, nofun⟩
  | created | reported =>
    obtain ⟨answer, -, same⟩ := eq_of_settled settled
    cases same
    exact ⟨.none, nofun⟩
  | subscribed | subscribedBus =>
    cases settled
    exact ⟨.none, nofun⟩

theorem conclude_change (c : Client) (p : Proposals) (pending : Pending) (reply : Option Reply) :
    Change p pending reply (c.conclude p pending reply).2.1 ∧
      ∀ address, (c.conclude p pending reply).2.2 ≠ .exchange address := by
  simp only [conclude]
  split
  · exact ⟨.none, nofun⟩
  · exact ⟨.none, nofun⟩
  · split
    next settled => exact settle_change settled
    next => exact ⟨.none, nofun⟩

end Client

/-! ### What an event of a node can do -/

namespace Node

/-- The event that reaches the session. -/
def seen? (n : Node) : Event → Option Session.Event
  | .session event => some event
  | .dialed job result =>
    match n.errands.get? job with
    | some (.dialing _ _ _ _) => none
    | _ => some (.dialed job result)
  | .answer call reply =>
    match n.errandWaiting? call with
    | some _ => none
    | none => some (.answer call reply)
  | .timeout call =>
    match n.errandWaiting? call with
    | some _ => none
    | none => some (.timeout call)
  | .abandon job => some (.abandon job)
  | .elapse millis =>
    if n.deadlines.all (n.session.world.now + millis ≤ ·) then some (.elapse millis) else none
  | _ => none

/-- The call that an event brings to its end, and the reply unless the call was given up. -/
def Event.ended? : Event → Option (Nat × Option Reply)
  | .answer call reply => some (call, some reply)
  | .timeout call => some (call, none)
  | _ => none

/-- No registration returns. -/
def Silent (effects : List Effect) : Prop :=
  ∀ job address, .finish job (.exchange address) ∉ effects

/-- What an event does to a node. -/
inductive Course (n : Node) : Event → Turn → Prop where
  | session {event seen} (errands : Table Errand) (sees : n.seen? event = some seen) :
      Course n event
        ({ n with session := (n.session.step seen).1, errands }, (n.session.step seen).2)
  /-- A client takes ids, and numbers for its calls. -/
  | takes {event effects} (ids : IdGenerator) (nextCall : Nat) (clients : Table Client)
      (errands : Table Errand) (unseen : n.seen? event = none) (silent : Silent effects)
      (later : n.session.nextCall ≤ nextCall) :
      Course n event ({ session := { n.session with ids, nextCall }, clients, errands }, effects)
  /-- The call of a client has come to its end. -/
  | concludes {event call reply job client pending wait switch effects} (c : Client)
      (clients : Table Client) (errands : Table Errand) (unseen : n.seen? event = none)
      (silent : Silent effects) (ends : event.ended? = some (call, reply))
      (asking : n.errandWaiting? call = some (job, .asking client pending wait switch)) :
      Course n event
        ({ session :=
             { n.session with proposals := (c.conclude n.session.proposals pending reply).2.1 }
           clients, errands }, effects)

variable {n : Node} {event : Event}

theorem silent_nil : Silent [] := nofun

theorem silent_finish {job : Nat} {outcome : Outcome}
    (kind : ∀ address, outcome ≠ .exchange address) : Silent [.finish job outcome] := by
  intro other address member
  obtain ⟨-, same⟩ := Effect.finish.inj (List.mem_singleton.mp member)
  exact kind address same.symm

/-- An event that changes at most the errands. -/
theorem course_of_errands (errands : Table Errand) {effects : List Effect}
    (unseen : n.seen? event = none) (silent : Silent effects) :
    Course n event ({ n with errands }, effects) :=
  .takes n.session.ids n.session.nextCall n.clients errands unseen silent (Nat.le_refl _)

theorem connect_course {job client : Nat} {channelType : UInt32} {argument : String}
    {patience : Duration} (unseen : n.seen? event = none) :
    Course n event (n.connect job client channelType argument patience) := by
  simp only [connect]
  split
  · exact .takes _ n.session.nextCall _ _ unseen (silent_finish nofun) (Nat.le_refl _)
  · exact course_of_errands _ unseen (silent_finish nofun)

theorem errandAnswered_course {call job : Nat} {errand : Errand} {reply : Option Reply}
    (unseen : n.seen? event = none) (ends : event.ended? = some (call, reply))
    (found : n.errandWaiting? call = some (job, errand)) :
    Course n event (n.errandAnswered job errand reply) := by
  cases errand with
  | dialing => exact course_of_errands n.errands unseen silent_nil
  | receiving => exact course_of_errands n.errands unseen silent_nil
  | asking client pending wait switch =>
    simp only [errandAnswered]
    split
    · exact course_of_errands n.errands unseen silent_nil
    next c _ =>
      obtain ⟨-, kind⟩ := c.conclude_change n.session.proposals pending reply
      split
      · exact .concludes c _ _ unseen (by simp [Silent]) ends found
      · exact .concludes c _ _ unseen (by simp [Silent]) ends found
      · exact .concludes c _ _ unseen (silent_finish kind) ends found

theorem dialed_course {job : Nat} {result : Except WireError Unit} :
    Course n (.dialed job result) (n.dialed job result) := by
  simp only [dialed]
  split
  next found => exact connect_course (by simp only [seen?, found])
  next found =>
    exact course_of_errands _ (by simp only [seen?, found]) (silent_finish nofun)
  -- No client dials under this number, so it is a registration that does.
  next result _ _ notOk notFailed =>
    have sees : n.seen? (.dialed job result) = some (.dialed job result) := by
      simp only [seen?]
      split
      next client channelType argument patience found =>
        cases result with
        | ok => exact absurd rfl (notOk client channelType argument patience found)
        | error e => exact absurd rfl (notFailed client channelType argument patience e found)
      next => rfl
    exact .session n.errands sees

theorem operate_course {job client : Nat} {operation : Operation} :
    Course n (.operate job client operation) (n.operate job client operation) := by
  simp only [operate]
  split
  · exact course_of_errands n.errands rfl silent_nil
  · split
    · exact course_of_errands _ rfl (silent_finish nofun)
    · exact .takes _ _ n.clients _ rfl (by simp [Silent]) (Nat.le_succ _)

theorem item_course {job : Nat} {item : Option (Except WireError Item)} :
    Course n (.item job item) (n.item job item) := by
  simp only [Node.item]
  split
  · split
    · exact course_of_errands _ rfl (silent_finish nofun)
    · exact course_of_errands _ rfl (silent_finish nofun)
    · split
      · exact course_of_errands n.errands rfl (by simp [Silent])
      · exact course_of_errands n.errands rfl (by simp [Silent])
  · exact course_of_errands n.errands rfl silent_nil

/-- Every step of a node is one of the list. -/
theorem step_course (n : Node) (event : Event) : Course n event (n.step event) := by
  cases event with
  | session event => exact .session n.errands rfl
  | dial => exact course_of_errands _ rfl (by simp [Silent])
  | dialed => exact dialed_course
  | connect => exact connect_course rfl
  | operate => exact operate_course
  | answer call reply =>
    simp only [step, answer]
    split
    next job errand found => exact errandAnswered_course (by simp only [seen?, found]) rfl found
    next free =>
      have sees : n.seen? (.answer call reply) = some (.answer call reply) := by
        simp only [seen?, free]
      exact .session n.errands sees
  | timeout call =>
    simp only [step, timeout]
    split
    next job errand found =>
      have unseen : n.seen? (.timeout call) = none := by simp only [seen?, found]
      split
      · exact errandAnswered_course unseen rfl found
      · exact course_of_errands n.errands unseen silent_nil
    next free =>
      have sees : n.seen? (.timeout call) = some (.timeout call) := by simp only [seen?, free]
      exact .session n.errands sees
  | item => exact item_course
  | signal => exact course_of_errands _ rfl silent_nil
  | heed job =>
    simp only [step, heed]
    split
    · split
      · exact course_of_errands _ rfl (silent_finish nofun)
      · exact course_of_errands n.errands rfl silent_nil
    · exact course_of_errands n.errands rfl silent_nil
  | abandon job => exact .session _ rfl
  | elapse millis =>
    simp only [step, elapse]
    split
    next within =>
      have sees : n.seen? (.elapse millis) = some (.elapse millis) := if_pos within
      have turn := Course.session n.errands sees
      simpa [Session.step] using turn
    next beyond => exact course_of_errands n.errands (by simp [seen?, beyond]) silent_nil

/-! ### Runs -/

theorem run_cons (n : Node) (event : Event) (rest : List Event) :
    n.run (event :: rest) =
      (((n.step event).1.run rest).1, (n.step event).2 ++ ((n.step event).1.run rest).2) := rfl

theorem run_append (n : Node) (first more : List Event) :
    n.run (first ++ more) =
      (((n.run first).1.run more).1, (n.run first).2 ++ ((n.run first).1.run more).2) := by
  induction first generalizing n with
  | nil => simp [run]
  | cons event rest ih => simp [run, ih]

theorem run_invariant (holds : Node → Prop) (kept : ∀ n event, holds n → holds (n.step event).1)
    (initially : holds n) (events : List Event) : holds (n.run events).1 := by
  induction events generalizing n with
  | nil => exact initially
  | cons event rest ih => exact ih (kept n event initially)

theorem run_concat (n : Node) (events : List Event) (event : Event) :
    n.run (events ++ [event]) =
      (((n.run events).1.step event).1, (n.run events).2 ++ ((n.run events).1.step event).2) := by
  simp [run_append, run]

end Node

end ExchangeNode
