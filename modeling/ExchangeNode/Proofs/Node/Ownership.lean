import ExchangeNode.Proofs.Node.Buses
import ExchangeNode.Proofs.Session.Waiting

/-!
# A job among others

Jobs are told apart by their numbers. As long as nobody begins anything else under the number of a
client's operation, and nobody abandons it, no other event does anything under that number: the
operation goes on when its call ends, and a subscription also with each of its items, with its stop
switch and when it heeds that switch. `Fate` lists what an event does to it.
-/

namespace ExchangeNode

/-- Whether there are items to receive once a call has been accepted. -/
def Pending.receives : Pending → Bool
  | .subscribed _ | .subscribedBus => true
  | _ => false

/-- The job that an effect is about. -/
def Effect.job? : Effect → Option Nat
  | .dial job _ | .pull job | .deliver job _ | .finish job _ => some job
  | .call _ _ => none

/-! ### Jobs of the session -/

namespace Session

variable {s : Session} {event : Event} {turn : Turn}

/-- The job that registers with an event is named by the user or under way. -/
theorem about_of_applicant {job : Nat} {directory : String} {registration : Registration}
    (applies : s.applicant? event = some (job, directory, registration)) :
    event.job? = some job ∨ (s.jobs.get? job).isSome := by
  obtain rfl | ⟨rfl, dialing⟩ := applicant?_spec applies
  · exact .inl rfl
  · exact .inr (by simp [dialing])

theorem about_of_hears {job : Nat} {work : Work} {reply : Option Reply}
    (hears : s.jobHears? event = some (job, work, reply)) : (s.jobs.get? job).isSome := by
  simp [jobHears?_spec hears]

/-- A step of a session is about one job at most, which the user names or which is under way. -/
theorem about_course (course : Course s event turn) :
    (turn.1.jobs = s.jobs ∧ ∀ effect ∈ turn.2, effect.job? = none) ∨
      ∃ job, (event.job? = some job ∨ (s.jobs.get? job).isSome) ∧ Apart s turn.1 job ∧
        ∀ effect ∈ turn.2, effect.job? = none ∨ effect.job? = some job := by
  cases course with
  -- The user begins a job, which waits or is done at once.
  | dials | unregisters | stops | asks =>
    exact .inr ⟨_, .inl rfl, apart_of_set rfl, by simp [jobCalls, Effect.job?]⟩
  | unregistersInVain | stopsAtOnce | asksInVain | abandons | issues =>
    exact .inr ⟨_, .inl rfl, apart_of_erase rfl, by simp [finish, Effect.job?]⟩
  -- A job that is under way goes on or ends.
  | clears applies | applies applies =>
    exact .inr ⟨_, about_of_applicant applies, apart_of_set rfl,
      by simp [apply, jobCalls, Effect.job?]⟩
  | cleared clearing =>
    exact .inr ⟨_, .inr (by simp [clearing]), apart_of_set rfl,
      by simp [apply, jobCalls, Effect.job?]⟩
  | undialed found | stopped found =>
    exact .inr ⟨_, .inr (by simp [found]), apart_of_erase rfl, by simp [finish, Effect.job?]⟩
  | adopts hears | forgets hears | revokesAtLast hears | learns hears =>
    exact .inr ⟨_, .inr (about_of_hears hears), apart_of_erase rfl,
      by simp [finish, Effect.job?]⟩
  | revokes hears =>
    exact .inr ⟨_, .inr (about_of_hears hears), apart_of_set rfl, by simp⟩
  -- What is left is about a loop or about the session as a whole.
  | beats | reconnects | moves => exact .inl ⟨rfl, by simp [loopCalls, Effect.job?]⟩
  | _ => exact .inl ⟨rfl, by simp⟩

/-- A job that a session does not have and that the user does not name stays out of it. -/
theorem stranger_step {job : Nat} (stranger : s.jobs.get? job = none)
    (other : event.job? ≠ some job) :
    (s.step event).1.jobs.get? job = none ∧
      ∀ effect ∈ (s.step event).2, effect.job? ≠ some job := by
  obtain ⟨same, quiet⟩ | ⟨about, named, apart, quiet⟩ := about_course (step_course s event)
  · refine ⟨same ▸ stranger, fun effect member => ?_⟩
    rw [quiet effect member]
    exact nofun
  · have different : job ≠ about := by
      rintro rfl
      obtain named | underway := named
      · exact other named
      · rw [stranger] at underway
        cases underway
    refine ⟨(apart job different).trans stranger, fun effect member => ?_⟩
    obtain none | isAbout := quiet effect member
    · rw [none]
      exact nofun
    · rw [isAbout]
      exact fun same => different (Option.some.inj same).symm

end Session

/-! ### Operations of clients -/

namespace Node

/-- The job that the user begins or abandons with an event. -/
def Event.job? : Event → Option Nat
  | .session event => event.job?
  | .dial job _ _ _ _ _ | .connect job _ _ _ _ | .operate job _ _ | .abandon job => some job
  | _ => none

/-- What an event does under the number of a job that it neither begins nor abandons. -/
inductive Fate (n : Node) (job : Nat) : Event → Turn → Prop where
  /-- The event is about something else. -/
  | stays {event turn} (same : turn.1.errands.get? job = n.errands.get? job)
      (quiet : ∀ effect ∈ turn.2, effect.job? ≠ some job) : Fate n job event turn
  | dialed {client channelType argument patience} (result : Except WireError Unit)
      (dialing : n.errands.get? job = some (.dialing client channelType argument patience)) :
      Fate n job (.dialed job result) (n.dialed job result)
  | hears {event client pending wait switch reply}
      (hears : n.errandHears? event = some (job, .asking client pending wait switch, reply)) :
      Fate n job event (n.errandAnswered job (.asking client pending wait switch) reply)
  | takes {guarded switch} (item : Option (Except WireError Item))
      (receiving : n.errands.get? job = some (.receiving guarded switch)) :
      Fate n job (.item job item) (n.item job item)
  | heeds {guarded switch} (receiving : n.errands.get? job = some (.receiving guarded switch))
      (callsOff : switch.callsOff) : Fate n job (.heed job) (n.finish job .done)
  | signalled (signal : StopSwitch.Signal) :
      Fate n job (.signal job signal)
        ({ n with errands := n.errands.modify job (·.signal signal) }, [])

variable {n : Node} {job other : Nat} {event : Event}

theorem stays_of_nothing : Fate n job event (n, []) := .stays rfl (by simp)

theorem stays_of_finish (session : Session) (clients : Table Client) (different : other ≠ job)
    (outcome : Outcome) :
    Fate n job event ({ n with session, clients }.finish other outcome) := by
  apply Fate.stays
  · rw [finish, Table.get?_erase, if_neg different.symm]
  · simp [finish, Effect.job?, different]

theorem stays_of_connect (client : Nat) (channelType : UInt32) (argument : String)
    (patience : Duration) (different : other ≠ job) :
    Fate n job event (n.connect other client channelType argument patience) := by
  simp only [connect]
  split
  · exact stays_of_finish _ _ different _
  · exact stays_of_finish n.session n.clients different _

/-- The session does nothing for a job that is not its own. -/
theorem stays_of_session {seen : Session.Event} (stranger : n.session.jobs.get? job = none)
    (unnamed : seen.job? ≠ some job) : Fate n job event (n.ofSession (n.session.step seen)) :=
  .stays rfl (Session.stranger_step stranger unnamed).2

theorem stays_of_unnamed {seen : Session.Event} (stranger : n.session.jobs.get? job = none)
    (unnamed : seen.job? = none) : Fate n job event (n.ofSession (n.session.step seen)) :=
  stays_of_session stranger (by simp [unnamed])

theorem stays_of_answered {client : Nat} {pending : Pending} {wait : Wait} {switch : StopSwitch}
    (reply : Option Reply) (different : other ≠ job) :
    Fate n job event (n.errandAnswered other (.asking client pending wait switch) reply) := by
  simp only [errandAnswered]
  split
  · exact stays_of_nothing
  · split
    · exact .stays (by simp [different.symm]) (by simp [Effect.job?, different])
    · exact .stays (by simp [different.symm]) (by simp [Effect.job?, different])
    · exact stays_of_finish _ _ different _

theorem stays_of_dialed {result : Except WireError Unit}
    (stranger : n.session.jobs.get? job = none) (different : other ≠ job) :
    Fate n job event (n.dialed other result) := by
  simp only [dialed]
  split
  · exact stays_of_connect _ _ _ _ different
  · exact stays_of_finish n.session n.clients different _
  · exact stays_of_unnamed stranger rfl

theorem stays_of_operate {client : Nat} {operation : Operation} (different : other ≠ job) :
    Fate n job event (n.operate other client operation) := by
  simp only [operate]
  split
  · exact stays_of_nothing
  · split
    · exact stays_of_finish n.session n.clients different _
    · exact .stays (by simp [different.symm]) (by simp [Effect.job?])

theorem stays_of_item {item : Option (Except WireError Item)} (different : other ≠ job) :
    Fate n job event (n.item other item) := by
  simp only [Node.item]
  split
  · split
    · exact stays_of_finish n.session n.clients different _
    · exact stays_of_finish n.session n.clients different _
    · split
      · exact .stays rfl (by simp [Effect.job?, different])
      · exact .stays rfl (by simp [Effect.job?, different])
  · exact stays_of_nothing

theorem stays_of_heed (different : other ≠ job) : Fate n job event (n.heed other) := by
  simp only [heed]
  split
  · split
    · exact stays_of_finish n.session n.clients different _
    · exact stays_of_nothing
  · exact stays_of_nothing

/-- The end of a call is heard by the operation that waits for it. -/
theorem fate_of_hears {errand : Errand} {reply : Option Reply}
    (hears : n.errandHears? event = some (other, errand, reply)) :
    Fate n job event (n.step event) := by
  obtain ⟨call, -, waiting, turn⟩ := errandHears?_spec hears
  obtain ⟨client, pending, wait, switch, rfl, -, -⟩ := errandWaiting?_spec waiting
  rw [turn]
  by_cases own : other = job
  · subst own
    exact .hears hears
  · exact stays_of_answered reply own

/-- A call that comes to its end unheard is the session's, or was given up too early. -/
theorem fate_of_unheard (stranger : n.session.jobs.get? job = none)
    (ends : event.ended?.isSome) (unheard : n.errandHears? event = none) :
    Fate n job event (n.step event) := by
  cases event with
  | answer call reply =>
    have free : n.errandWaiting? call = none := by simpa [errandHears?] using unheard
    simp only [step, answer, free]
    have unnamed : (Session.Event.answer call reply).job? = none := rfl
    exact stays_of_unnamed stranger unnamed
  | timeout call =>
    simp only [step, timeout]
    split
    next found =>
      split
      -- A call whose time is up is heard by the operation that waits for it.
      next late => simp [errandHears?, found, Option.filter, late] at unheard
      next => exact stays_of_nothing
    next => exact stays_of_unnamed stranger rfl
  | _ => cases ends

/-- Only a subscription that receives takes items. -/
theorem fate_of_item (item : Option (Except WireError Item)) :
    Fate n job (.item job item) (n.item job item) := by
  cases found : n.errands.get? job with
  | none =>
    simp only [Node.item, found]
    exact stays_of_nothing
  | some errand =>
    cases errand with
    | receiving => exact .takes item found
    | dialing | asking =>
      simp only [Node.item, found]
      exact stays_of_nothing

/-- Only a subscription that receives heeds its stop switch. -/
theorem fate_of_heed : Fate n job (.heed job) (n.heed job) := by
  simp only [heed]
  split
  next receiving =>
    split
    next callsOff => exact .heeds receiving callsOff
    next => exact stays_of_nothing
  next => exact stays_of_nothing

/-- Only an operation that dials goes on when its address has been dialed. -/
theorem fate_of_dialed (stranger : n.session.jobs.get? job = none)
    (result : Except WireError Unit) : Fate n job (.dialed job result) (n.dialed job result) := by
  cases found : n.errands.get? job with
  | none =>
    simp only [dialed, found]
    exact stays_of_unnamed stranger rfl
  | some errand =>
    cases errand with
    | dialing => exact .dialed result found
    | asking | receiving =>
      simp only [dialed, found]
      exact stays_of_unnamed stranger rfl

/-- Every event that neither begins nor abandons a job is one of the list. -/
theorem step_fate (stranger : n.session.jobs.get? job = none) (unnamed : event.job? ≠ some job) :
    Fate n job event (n.step event) := by
  -- What is about another number stays away from this one; the rest depends on what is found here.
  cases event with
  | session event => exact stays_of_session stranger unnamed
  | dial other =>
    have different : other ≠ job := fun same => unnamed (congrArg some same)
    exact .stays (by simp [step, different.symm]) (by simp [step, Effect.job?, different])
  | dialed other result =>
    by_cases own : other = job
    · exact own ▸ fate_of_dialed (own ▸ stranger) result
    · exact stays_of_dialed stranger own
  | connect other => exact stays_of_connect _ _ _ _ fun same => unnamed (congrArg some same)
  | operate other => exact stays_of_operate fun same => unnamed (congrArg some same)
  | answer | timeout =>
    cases hears : n.errandHears? _ with
    | some entry => exact fate_of_hears hears
    | none => exact fate_of_unheard stranger rfl hears
  | item other item =>
    by_cases own : other = job
    · exact own ▸ fate_of_item item
    · exact stays_of_item own
  | signal other signal =>
    by_cases own : other = job
    · exact own ▸ .signalled signal
    · exact .stays (by simp [step, Ne.symm own]) (by simp [step])
  | heed other =>
    by_cases own : other = job
    · exact own ▸ fate_of_heed
    · exact stays_of_heed own
  | abandon other =>
    have different : other ≠ job := fun same => unnamed (congrArg some same)
    exact .stays (by simp [step, different.symm]) (by simp [step])
  | elapse millis =>
    simp only [step, elapse]
    split
    · exact .stays rfl (by simp)
    · exact stays_of_nothing

theorem job?_of_seen? {seen : Session.Event} (sees : n.seen? event = some seen) :
    seen.job? = none ∨ seen.job? = event.job? := by
  cases event with
  | session | abandon =>
    cases sees
    exact .inr rfl
  -- Nobody names a job with what else reaches the session.
  | dialed | answer | timeout =>
    simp only [seen?] at sees
    split at sees
    · cases sees
    · cases sees
      exact .inl rfl
  | elapse =>
    simp only [seen?] at sees
    split at sees
    · cases sees
      exact .inl rfl
    · cases sees
  | _ => cases sees

/-- A number that the session has no job under stays such a number. -/
theorem stranger_kept (stranger : n.session.jobs.get? job = none)
    (unnamed : event.job? ≠ some job) : (n.step event).1.session.jobs.get? job = none := by
  have course := n.step_course event
  generalize n.step event = turn at course
  cases course with
  | session _ sees =>
    have unseen : ∀ seen, n.seen? event = some seen → seen.job? ≠ some job := by
      intro seen sees
      obtain none | same := job?_of_seen? sees
      · simp [none]
      · rwa [same]
    exact (Session.stranger_step stranger (unseen _ sees)).1
  | takes | concludes => exact stranger

/-- What a job ends with. -/
def outcomes (job : Nat) (effects : List Effect) : List Outcome :=
  effects.filterMap fun
    | .finish other outcome => if other = job then some outcome else none
    | _ => none

theorem outcomes_of_quiet {effects : List Effect}
    (quiet : ∀ effect ∈ effects, effect.job? ≠ some job) :
    outcomes job effects = [] := by
  simp only [outcomes, List.filterMap_eq_nil_iff]
  intro effect member
  cases effect with
  | finish other outcome =>
    have different : other ≠ job := fun same => quiet _ member (congrArg some same)
    simp [different]
  | _ => rfl

/-! ### How far an operation has come -/

/-- What is done with an event to the stop switch of a job. -/
def Event.signal? (job : Nat) : Event → Option StopSwitch.Signal
  | .signal other given => if other = job then some given else none
  | _ => none

/-- The stop switch of a job after an event. -/
def switchAfter (job : Nat) (switch : StopSwitch) (event : Event) : StopSwitch :=
  (event.signal? job).elim switch switch.after

section

variable {number : Nat} {pending : Pending} {wait : Wait} {guarded : Bool} {switch : StopSwitch}

theorem get?_of_signal {signal : StopSwitch.Signal} (signals : event.signal? job = some signal) :
    (n.step event).1.errands.get? job = (n.errands.get? job).map (·.signal signal) ∧
      (n.step event).2 = [] := by
  cases event with
  | signal other given =>
    simp only [Event.signal?] at signals
    split at signals
    next own =>
      cases signals
      simp [step, own]
    next => cases signals
  | _ => cases signals

theorem asking_of_hears {errand : Errand} {reply : Option Reply}
    (hears : n.errandHears? event = some (job, errand, reply)) :
    ∃ number pending wait switch, errand = .asking number pending wait switch ∧
      n.errands.get? job = some errand := by
  obtain ⟨call, -, waiting, -⟩ := errandHears?_spec hears
  obtain ⟨number, pending, wait, switch, same, -, found⟩ := errandWaiting?_spec waiting
  exact ⟨number, pending, wait, switch, same, found⟩

/-- Nothing begins by itself. -/
theorem rests (stranger : n.session.jobs.get? job = none) (unnamed : event.job? ≠ some job)
    (idle : n.errands.get? job = none) :
    (n.step event).1.errands.get? job = none ∧
      ∀ effect ∈ (n.step event).2, effect.job? ≠ some job := by
  have fate := step_fate stranger unnamed
  generalize n.step event = turn at fate
  cases fate with
  | stays same quiet => exact ⟨same.trans idle, quiet⟩
  | dialed _ found | takes _ found | heeds found => simp [idle] at found
  | signalled signal => simp [idle]
  | hears hears =>
    obtain ⟨-, -, -, -, -, found⟩ := asking_of_hears hears
    simp [idle] at found

/-- An operation that waits hears of its call with an event, or not. -/
theorem hears_or_not (n : Node) (job : Nat) (event : Event) :
    (∃ errand reply, n.errandHears? event = some (job, errand, reply)) ∨
      ∀ errand reply, n.errandHears? event ≠ some (job, errand, reply) := by
  by_cases heard : ∃ errand reply, n.errandHears? event = some (job, errand, reply)
  · exact .inl heard
  · exact .inr fun errand reply hears => heard ⟨errand, reply, hears⟩

/-- An operation waits until its call ends. -/
theorem asks_on (stranger : n.session.jobs.get? job = none) (unnamed : event.job? ≠ some job)
    (asking : n.errands.get? job = some (.asking number pending wait switch))
    (unheard : ∀ errand reply, n.errandHears? event ≠ some (job, errand, reply)) :
    (n.step event).1.errands.get? job =
        some (.asking number pending wait (switchAfter job switch event)) ∧
      ∀ effect ∈ (n.step event).2, effect.job? ≠ some job := by
  cases signals : event.signal? job with
  | some signal =>
    obtain ⟨found, silent⟩ := get?_of_signal (n := n) signals
    simp [found, asking, silent, Errand.signal, switchAfter, signals]
  | none =>
    have fate := step_fate stranger unnamed
    generalize n.step event = turn at fate
    simp only [switchAfter, signals, Option.elim_none]
    cases fate with
    | stays same quiet => exact ⟨same.trans asking, quiet⟩
    | dialed _ found | takes _ found | heeds found => simp [asking] at found
    | signalled => simp [Event.signal?] at signals
    | hears hears => exact absurd hears (unheard _ _)

/-- A subscription that receives takes an item with an event, or heeds its switch, or neither. -/
theorem takes_or_heeds (job : Nat) (event : Event) :
    (∃ item, event = .item job item) ∨ event = .heed job ∨
      ((∀ item, event ≠ .item job item) ∧ event ≠ .heed job) := by
  by_cases taken : ∃ item, event = .item job item
  · exact .inl taken
  · by_cases heeded : event = .heed job
    · exact .inr (.inl heeded)
    · exact .inr (.inr ⟨fun item same => taken ⟨item, same⟩, heeded⟩)

/-- A subscription receives until it gets an item or heeds its stop switch. -/
theorem receives_on (stranger : n.session.jobs.get? job = none)
    (unnamed : event.job? ≠ some job)
    (receiving : n.errands.get? job = some (.receiving guarded switch))
    (noItem : ∀ item, event ≠ .item job item) (unheeded : event ≠ .heed job) :
    (n.step event).1.errands.get? job =
        some (.receiving guarded (switchAfter job switch event)) ∧
      ∀ effect ∈ (n.step event).2, effect.job? ≠ some job := by
  cases signals : event.signal? job with
  | some signal =>
    obtain ⟨found, silent⟩ := get?_of_signal (n := n) signals
    simp [found, receiving, silent, Errand.signal, switchAfter, signals]
  | none =>
    have fate := step_fate stranger unnamed
    generalize n.step event = turn at fate
    simp only [switchAfter, signals, Option.elim_none]
    cases fate with
    | stays same quiet => exact ⟨same.trans receiving, quiet⟩
    | dialed _ found => simp [receiving] at found
    | takes item => exact absurd rfl (noItem item)
    | heeds => exact absurd rfl unheeded
    | signalled => simp [Event.signal?] at signals
    | hears hears =>
      obtain ⟨-, -, -, -, -, found⟩ := asking_of_hears hears
      simp [receiving] at found

/-- When its call has ended an operation ends too, or begins to receive. -/
theorem errandAnswered_eq {c c' : Client} {proposals : Proposals} {outcome : Outcome}
    {reply : Option Reply} (found : n.clients.get? number = some c)
    (concludes : c.conclude n.session.proposals pending reply = (c', proposals, outcome)) :
    n.errandAnswered job (.asking number pending wait switch) reply =
      let m := { n with
        session := { n.session with proposals }
        clients := n.clients.set number c' }
      if pending.receives ∧ outcome = .done then
        ({ m with errands := n.errands.set job (.receiving pending.isGuarded switch) },
          [.pull job])
      else m.finish job outcome := by
  simp only [errandAnswered, found, concludes]
  cases pending with
  | subscribed | subscribedBus =>
    cases outcome with
    | done => rfl
    | _ => rfl
  | _ => rfl

/-- How far an operation has come: it waits for the answer to its call, or receives, or has ended,
and nothing else goes on under its number. -/
structure Underway (job number : Nat) (pending : Pending) (switch : StopSwitch) (n : Node) :
    Prop where
  stranger : n.session.jobs.get? job = none
  errand : ∀ errand, n.errands.get? job = some errand →
    (∃ wait, errand = .asking number pending wait switch) ∨
      (pending.receives ∧ errand = .receiving pending.isGuarded switch)

theorem Underway.of_asking (stranger : n.session.jobs.get? job = none)
    (asking : n.errands.get? job = some (.asking number pending wait switch)) :
    Underway job number pending switch n where
  stranger := stranger
  errand _ found := .inl ⟨wait, Option.some.inj (found.symm.trans asking)⟩

theorem Underway.of_receiving (stranger : n.session.jobs.get? job = none)
    (receives : pending.receives)
    (receiving : n.errands.get? job = some (.receiving pending.isGuarded switch)) :
    Underway job number pending switch n where
  stranger := stranger
  errand _ found := .inr ⟨receives, Option.some.inj (found.symm.trans receiving)⟩

theorem Underway.of_ended (stranger : n.session.jobs.get? job = none)
    (ended : n.errands.get? job = none) : Underway job number pending switch n where
  stranger := stranger
  errand errand found := by simp [ended] at found

theorem switchAfter_of_none (steady : event.signal? job = none) :
    switchAfter job switch event = switch := by
  rw [switchAfter, steady, Option.elim_none]

theorem underway_of_hears {reply : Option Reply} (stranger : n.session.jobs.get? job = none)
    (hears : n.errandHears? event = some (job, .asking number pending wait switch, reply)) :
    Underway job number pending switch (n.step event).1 := by
  obtain ⟨-, -, -, -, -, asking⟩ := asking_of_hears hears
  obtain ⟨-, -, -, turn⟩ := errandHears?_spec hears
  rw [turn]
  cases found : n.clients.get? number with
  | none =>
    simp only [errandAnswered, found]
    exact .of_asking stranger asking
  | some c =>
    rcases concludes : c.conclude n.session.proposals pending reply with ⟨c', proposals, outcome⟩
    simp only [errandAnswered_eq found concludes]
    split
    next receives => exact .of_receiving stranger receives.1 (by simp)
    next => exact .of_ended stranger (by simp [finish])

/-- An operation begins under a number that nothing else goes on under. -/
theorem underway_of_operate {operation : Operation} (stranger : n.session.jobs.get? job = none)
    (new : n.errands.get? job = none)
    (leaves : ∀ c request p ids, n.clients.get? number = some c →
      c.begin n.session.ids n.session.world.clock operation = .ok (request, p, ids) → p = pending) :
    Underway job number pending .off (n.step (.operate job number operation)).1 := by
  simp only [step, operate]
  split
  · exact .of_ended stranger new
  next c found =>
    split
    · exact .of_ended stranger (by simp [finish])
    next begins =>
      obtain rfl := leaves c _ _ _ found begins
      exact .of_asking stranger (by rw [Table.get?_set, if_pos rfl])

theorem signal?_of_hears {errand : Errand} {reply : Option Reply}
    (hears : n.errandHears? event = some (job, errand, reply)) : event.signal? other = none := by
  cases event with
  | answer | timeout => rfl
  | _ => cases hears

/-- What is left of a subscription after an item: it receives on, or it has ended. -/
theorem get?_item (receiving : n.errands.get? job = some (.receiving guarded switch))
    (item : Option (Except WireError Item)) :
    (n.item job item).1.errands.get? job = some (.receiving guarded switch) ∨
      (n.item job item).1.errands.get? job = none := by
  simp only [Node.item, receiving]
  split
  · exact .inr (by simp [finish])
  · exact .inr (by simp [finish])
  · split
    · exact .inl receiving
    · exact .inl receiving

theorem get?_heed (receiving : n.errands.get? job = some (.receiving guarded switch)) :
    (n.heed job).1.errands.get? job = some (.receiving guarded switch) ∨
      (n.heed job).1.errands.get? job = none := by
  simp only [heed, receiving]
  split
  · exact .inr (by simp [finish])
  · exact .inl receiving

theorem underway_of_left (kept : n.session.jobs.get? job = none) (receives : pending.receives)
    (left : n.errands.get? job = some (.receiving pending.isGuarded switch) ∨
      n.errands.get? job = none) : Underway job number pending switch n := by
  obtain receiving | ended := left
  · exact .of_receiving kept receives receiving
  · exact .of_ended kept ended

theorem underway_step (underway : Underway job number pending switch n)
    (unnamed : event.job? ≠ some job) :
    Underway job number pending (switchAfter job switch event) (n.step event).1 := by
  have stranger := underway.stranger
  have kept := stranger_kept stranger unnamed
  -- An operation that waits may hear its answer, one that receives may take an item or heed its
  -- switch; any other event leaves it where it is, but for the switch.
  cases found : n.errands.get? job with
  | none => exact .of_ended kept (rests stranger unnamed found).1
  | some errand =>
    obtain ⟨wait, rfl⟩ | ⟨receives, rfl⟩ := underway.errand errand found
    · obtain ⟨errand, reply, hears⟩ | unheard := hears_or_not n job event
      · obtain ⟨-, -, -, -, -, asking⟩ := asking_of_hears hears
        cases found.symm.trans asking
        rw [switchAfter_of_none (signal?_of_hears hears)]
        exact underway_of_hears stranger hears
      · exact .of_asking kept (asks_on stranger unnamed found unheard).1
    · obtain ⟨item, rfl⟩ | rfl | ⟨noItem, unheeded⟩ := takes_or_heeds job event
      · exact underway_of_left kept receives (get?_item found item)
      · exact underway_of_left kept receives (get?_heed found)
      · exact .of_receiving kept receives (receives_on stranger unnamed found noItem unheeded).1

/-- What is done to the stop switch of a job in a sequence of events. -/
def signals (job : Nat) (events : List Event) : List StopSwitch.Signal :=
  events.filterMap (·.signal? job)

theorem underway_run (underway : Underway job number pending switch n) {events : List Event}
    (own : ∀ event ∈ events, event.job? ≠ some job) :
    Underway job number pending ((signals job events).foldl StopSwitch.after switch)
      (n.run events).1 := by
  induction events generalizing n switch with
  | nil => exact underway
  | cons event rest ih =>
    have rested := ih (underway_step underway (own event List.mem_cons_self))
      fun later member => own later (List.mem_cons_of_mem event member)
    rw [run_cons]
    cases given : event.signal? job with
    | none | some => simpa [signals, given, switchAfter] using rested

end

end Node

end ExchangeNode
