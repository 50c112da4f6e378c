import ExchangeNode.Proofs.CommandLine.Errands

/-!
# The books of a command

The books of a command that advertises or watches say how far it has come, what it has asked of the
directory, what it was granted and what has failed. `accounts_step` shows that they stay right
whatever happens, as long as the directory does not order the node to move or to register again.
-/

namespace ExchangeNode

def Outcome.failure? : Outcome → Option NodeError
  | .failed e => some e
  | _ => none

theorem IdGenerator.exists_issue {ids : IdGenerator} (seeded : ids.node ≠ none) (clock : Int) :
    ∃ id taken, ids.generate clock = .ok (id, taken) ∧ taken.node ≠ none := by
  obtain ⟨number, isNode⟩ := Option.ne_none_iff_exists'.mp seeded
  have issued : ids.generate clock =
      .ok (pack (ids.advance clock).lastMs number (ids.advance clock).sequence,
        ids.advance clock) := by
    simp only [generate, isNode]
  refine ⟨_, _, issued, ?_⟩
  rw [node_of_generate issued]
  exact seeded

namespace Execution

/-! ### The books -/

/-- What an execution lets happen to its node. -/
def world? (x : Execution) : Event → Option Node.Event
  | .node event => if !x.hasEnded && event.isWorldly then some event else none
  | _ => none

/-- The failures among effects, but for that to give the registration up. -/
def failures (effects : List Effect) : List NodeError :=
  effects.filterMap fun
    | .finish job outcome => if job = leaveJob then none else outcome.failure?
    | _ => none

/-- No heartbeat is answered with the order to move or to register again. -/
def Spared (x : Execution) (event : Event) : Prop :=
  ∀ happens ∈ x.world? event, ∀ seen ∈ x.node.seen? happens, x.node.session.Spared seen

instance (x : Execution) (event : Event) : Decidable (Spared x event) :=
  inferInstanceAs (Decidable
    (∀ happens ∈ x.world? event, ∀ seen ∈ x.node.seen? happens, x.node.session.Spared seen))

/-- How far a command has come, and what it has asked of the directory so far. -/
inductive Ledger (registration : Registration) (x : Execution) : List Registration →
    List Identity → List Identity → List NodeError → Prop where
  | registering {asked} (progress : x.progress = .registering) (free : x.node.Free)
      (applying : x.node.session.Applying registerJob registration asked) :
      Ledger registration x asked [] [] []
  | opening {identity} (progress : x.progress = .opening) (dialing : x.node.Dialing)
      (standing : x.node.session.Standing identity) :
      Ledger registration x [registration] [] [identity] []
  | operating {identity} (progress : x.progress = .operating) (operating : x.node.Operating)
      (standing : x.node.session.Standing identity) :
      Ledger registration x [registration] [] [identity] []
  | leaving {farewell failure identity failed} (progress : x.progress = .leaving farewell failure)
      (free : x.node.Free) (tended : x.node.session.Tended leaveJob) (live : identity.isLive)
      (first : failed.head? = failure) :
      Ledger registration x [registration] [identity] [identity] failed
  | ended {asked granted failed failure} (progress : x.progress = .ended failure)
      (few : asked = [] ∨ asked = [registration]) (once : granted.length ≤ 1)
      (first : failed.head? = failure) :
      Ledger registration x asked (granted.filter Identity.isLive) granted failed

/-- What a turn of a command comes to, after what has been asked for before. -/
structure Accounts (registration : Registration) (asked : List Registration)
    (given granted : List Identity) (failed : List NodeError) (turn : Turn) : Prop where
  works : turn.1.command ≠ .register
  ledger : Ledger registration turn.1 (asked ++ Session.registrations turn.2)
    (given ++ Session.revocations turn.2) granted failed

/-! ### What the node does is heeded -/

theorem failures_finish {job : Nat} (different : job ≠ leaveJob) (outcome : Outcome) :
    failures [.finish job outcome] = outcome.failure?.toList := by
  cases outcome with
  | failed e => simp [failures, different, Outcome.failure?]
  | _ => simp [failures, Outcome.failure?]

variable {x : Execution} {registration : Registration} {identity : Identity}
  {asked : List Registration} {given granted : List Identity} {failed : List NodeError}

theorem heed_of_calls {effects : List Effect}
    (calls : ∀ effect ∈ effects, ∃ call request, effect = .call call request) :
    x.heed effects = (x, effects) := by
  induction effects with
  | nil => rfl
  | cons effect rest ih =>
    obtain ⟨call, request, rfl⟩ := calls effect List.mem_cons_self
    have later := ih fun other member => calls other (List.mem_cons_of_mem _ member)
    simp only [heed, later]

theorem heed_finish (x : Execution) (job : Nat) (outcome : Outcome) :
    x.heed [.finish job outcome] = x.goOn outcome := by
  simp [heed]

theorem step_of_world {event : Event} {happens : Node.Event}
    (world : x.world? event = some happens) :
    x.hasEnded = false ∧ happens.isWorldly ∧ x.step event =
      heed { x with node := (x.node.step happens).1 } (x.node.step happens).2 := by
  cases event with
  | node event =>
    simp only [world?] at world
    split at world
    next lets =>
      cases world
      obtain ⟨lives, worldly⟩ := Bool.and_eq_true_iff.mp lets
      refine ⟨by simpa using lives, worldly, ?_⟩
      cases progress : x.progress with
      | ended => simp [hasEnded, progress] at lives
      | _ => simp only [step, progress, if_pos worldly]
    · cases world
  | interrupt | receive => cases world

theorem step_of_unworldly {event : Event} (unmoved : x.world? event = none) :
    x.step event = (x, []) ∨ x.step event = x.interrupt ∨ x.step event = x.receive := by
  cases progress : x.progress with
  | ended => exact .inl (by simp only [step, progress])
  | _ =>
    cases event with
    | node event =>
      have idle : event.isWorldly = false := by
        simpa [world?, hasEnded, progress] using unmoved
      exact .inl (by simp [step, progress, idle])
    | interrupt => exact .inr (.inl (by simp only [step, progress]))
    | receive => exact .inr (.inr (by simp only [step, progress]))

/-! ### From one phase to the next -/

theorem Accounts.of_quiet {turn : Turn} (works : turn.1.command ≠ .register)
    (asks : Session.registrations turn.2 = []) (gives : Session.revocations turn.2 = [])
    (ledger : Ledger registration turn.1 asked given granted failed) :
    Accounts registration asked given granted failed turn := by
  refine ⟨works, ?_⟩
  rw [asks, gives, List.append_nil, List.append_nil]
  exact ledger

theorem accounts_conclude {failure : Option NodeError} (works : x.command ≠ .register)
    (few : asked = [] ∨ asked = [registration]) (once : granted.length ≤ 1)
    (gives : granted.filter Identity.isLive = given) (first : failed.head? = failure)
    (farewell : Option Line) :
    Accounts registration asked given granted failed (x.conclude farewell failure) := by
  have same : (x.conclude farewell failure).1.command = x.command := by
    cases farewell with
    | none | some => rfl
  subst gives
  exact .of_quiet (same ▸ works) rfl rfl (.ended rfl few once first)

theorem accounts_leave (works : x.command ≠ .register) (free : x.node.Free)
    (standing : x.node.session.Standing identity) (farewell : Option Line)
    (failure : Option NodeError) :
    Accounts registration [registration] [] [identity] failure.toList
      (x.leave farewell failure) := by
  have first : failure.toList.head? = failure := by
    cases failure with
    | none | some => rfl
  cases live : identity.isLive with
  | true =>
    have held : x.node.session.live? = some identity := by
      simp [Session.live?, standing.named, live]
    have turn : x.node.step (.session (.unregister leaveJob)) =
        x.node.ofSession (x.node.session.jobCalls leaveJob .revoking (.unregister identity)) := by
      simp only [Node.step, Session.step, Session.unregister, held, standing.reached, if_true]
    simp only [leave, launch, turn]
    refine ⟨works, .leaving rfl free ⟨standing.beating, fun other work found => ?_⟩ live first⟩
    rcases Table.of_get?_set found with ⟨rfl, rfl⟩ | ⟨-, before⟩
    · exact ⟨rfl, .inl ⟨_, rfl⟩⟩
    · rw [standing.idle] at before
      cases before
  -- An identity that counts as given up already is not passed to the directory.
  | false =>
    have gone : x.node.session.live? = none := by
      simp [Session.live?, standing.named, live]
    have turn : x.node.step (.session (.unregister leaveJob)) =
        x.node.ofSession (x.node.session.finish leaveJob (.failed .notRegistered)) := by
      simp only [Node.step, Session.step, Session.unregister, gone]
    have none : [identity].filter Identity.isLive = [] := by simp [live]
    simp only [leave, launch, turn]
    apply accounts_conclude
    · exact works
    · exact .inr rfl
    · exact Nat.le_refl 1
    · exact none
    · exact first

theorem accounts_operated (works : x.command ≠ .register) (free : x.node.Free)
    (standing : x.node.session.Standing identity) (outcome : Outcome) :
    Accounts registration [registration] [] [identity] outcome.failure?.toList
      (x.operated outcome) := by
  cases outcome with
  | failed e => exact accounts_leave works free standing none (some e)
  | issued id =>
    cases command : x.command with
    | register => exact absurd command works
    | advertise side name argument asked =>
      simp only [operated, command]
      exact accounts_leave works free standing (some (advertised side id x.channel)) none
    | watch =>
      simp only [operated, command]
      exact accounts_leave works free standing none none
  | _ => exact accounts_leave works free standing none none

theorem ledger_of_signal {y : Execution} {job : Nat} {signal : StopSwitch.Signal}
    (ledger : Ledger registration x asked given granted failed) (progress : y.progress = x.progress)
    (node : y.node = { x.node with errands := x.node.errands.modify job (·.signal signal) }) :
    Ledger registration y asked given granted failed := by
  have session : y.node.session = x.node.session := by rw [node]
  cases ledger with
  | registering waits free applying =>
    exact .registering (progress.trans waits) (node ▸ free.signal job signal) (session ▸ applying)
  | opening waits dialing standing =>
    exact .opening (progress.trans waits) (node ▸ dialing.signal job signal) (session ▸ standing)
  | operating waits operating standing =>
    exact .operating (progress.trans waits) (node ▸ operating.signal job signal) (session ▸ standing)
  | leaving waits free tended live first =>
    exact .leaving (progress.trans waits) (node ▸ free.signal job signal) (session ▸ tended) live first
  | ended isOver few once first => exact .ended (progress.trans isOver) few once first

/-- The client that has just been opened begins what it was opened for. -/
theorem accounts_launch {c : Client} {operation : Operation} {request : Request}
    {pending : Pending} {ids : IdGenerator} (works : x.command ≠ .register) (free : x.node.Free)
    (standing : x.node.session.Standing identity)
    (found : x.node.clients.get? client = some c)
    (begins : c.begin x.node.session.ids x.node.session.world.clock operation =
      .ok (request, pending, ids))
    (seeded : ids.node ≠ none) (plain : request.method.isDirectory = false) :
    Accounts registration [registration] [] [identity] []
      (x.launch .operating (.operate operateJob client operation) operated) := by
  have turn : x.node.step (.operate operateJob client operation) =
      ({ x.node with
          session := { x.node.session with ids, nextCall := x.node.session.nextCall + 1 }
          errands := x.node.errands.set operateJob (.asking client pending
            ⟨x.node.session.nextCall, x.node.session.world.now + c.patience.millis⟩ .off) },
        [.call x.node.session.nextCall request]) := by
    simp only [Node.step, Node.operate, found, begins]
  have quiet : Session.registrations [.call x.node.session.nextCall request] = [] ∧
      Session.revocations [.call x.node.session.nextCall request] = [] := by
    cases request with
    | register | unregister => cases plain
    | _ => exact ⟨rfl, rfl⟩
  simp only [launch, turn]
  refine .of_quiet works quiet.1 quiet.2 (.operating rfl (fun job errand asking => ?_)
    ⟨standing.named, standing.reached, seeded, standing.idle, standing.beating⟩)
  rcases Table.of_get?_set asking with ⟨rfl, rfl⟩ | ⟨-, before⟩
  · exact ⟨rfl, .inl ⟨_, _, _, _, rfl⟩⟩
  · rw [free] at before
    cases before

theorem accounts_operate {c : Client} (works : x.command ≠ .register) (free : x.node.Free)
    (standing : x.node.session.Standing identity)
    (found : x.node.clients.get? client = some c) :
    Accounts registration [registration] [] [identity] [] x.operate := by
  cases command : x.command with
  | register => exact absurd command works
  | advertise side name argument asked =>
    obtain ⟨id, ids, issued, seeded⟩ :=
      IdGenerator.exists_issue standing.seeded x.node.session.world.clock
    have begins : ∃ request pending, request.method.isDirectory = false ∧
        c.begin x.node.session.ids x.node.session.world.clock
          (.notify side ⟨0, 0, name, argument, none⟩) = .ok (request, pending, ids) := by
      simp only [Client.begin, issued, bind, Except.bind]
      exact ⟨_, _, rfl, rfl⟩
    obtain ⟨request, pending, plain, begins⟩ := begins
    simp only [operate, command]
    exact accounts_launch works free standing found begins seeded plain
  | watch side asked raw =>
    simp only [operate, command]
    exact accounts_launch works free standing found rfl standing.seeded rfl

theorem accounts_opened (works : x.command ≠ .register) (free : x.node.Free)
    (standing : x.node.session.Standing identity) {outcome : Outcome}
    (held : outcome.failure? = none → (x.node.clients.get? client).isSome) :
    Accounts registration [registration] [] [identity] outcome.failure?.toList
      (x.opened outcome) := by
  have goesOn (held : (x.node.clients.get? client).isSome) :
      Accounts registration [registration] [] [identity] []
        (if x.operate.1.interrupted then
          ({ x.operate.1 with node := (x.operate.1.node.step (.cancel operateJob)).1 }, x.operate.2)
        else x.operate) := by
    obtain ⟨c, found⟩ := Option.isSome_iff_exists.mp held
    have accounts : Accounts registration [registration] [] [identity] [] x.operate :=
      accounts_operate works free standing found
    split
    · exact ⟨accounts.works, ledger_of_signal accounts.ledger rfl rfl⟩
    · exact accounts
  cases outcome with
  | failed e => exact accounts_leave works free standing none (some e)
  | _ => exact goesOn (held rfl)

theorem accounts_registered (works : x.command ≠ .register) (free : x.node.Free)
    (standing : x.node.session.Standing identity) (assigned : String) :
    Accounts registration [registration] [] [identity] []
      (x.registered (.exchange assigned)) := by
  have opens : Accounts registration [registration] [] [identity] [] (x.openClient assigned) := by
    refine .of_quiet works rfl rfl (.opening rfl (fun job errand found => ?_) ?_)
    · rcases Table.of_get?_set found with ⟨rfl, rfl⟩ | ⟨-, before⟩
      · exact ⟨rfl, _, _, _, rfl⟩
      · rw [free] at before
        cases before
    · exact ⟨standing.named, standing.reached, standing.seeded, standing.idle, standing.beating⟩
  cases command : x.command with
  | register => exact absurd command works
  | _ =>
    simp only [registered, command]
    exact opens

/-! ### One step -/

section

variable {event : Event} {happens : Node.Event} {seen : Session.Event}

theorem routine_unheeded {effects : List Effect} (routine : Session.Routine effects) :
    x.heed effects = (x, effects) := by
  refine heed_of_calls fun effect member => ?_
  obtain ⟨call, heartbeat, same⟩ := routine effect member
  exact ⟨call, .keepAlive heartbeat, same⟩

theorem failures_of_routine {effects : List Effect} (routine : Session.Routine effects) :
    failures effects = [] := by
  refine List.filterMap_eq_nil_iff.mpr fun effect member => ?_
  obtain ⟨call, heartbeat, rfl⟩ := routine effect member
  rfl

theorem accounts_registering (works : x.command ≠ .register) (progress : x.progress = .registering)
    (free : x.node.Free) (applying : x.node.session.Applying registerJob registration asked)
    (worldly : happens.isWorldly) :
    Accounts registration asked [] (x.node.grants happens) (failures (x.node.step happens).2)
      (heed { x with node := (x.node.step happens).1 } (x.node.step happens).2) := by
  cases sees : x.node.seen? happens with
  | none =>
    have errands := Node.errands_of_unseen worldly sees
    generalize x.node.step happens = turn at errands
    cases errands with
    | idles =>
      simp only [Node.grants, sees]
      exact .of_quiet works rfl rfl (.registering progress free applying)
    | connects found | undialed found | answered _ found | receives found | ends _ found =>
      rw [free] at found
      cases found
  | some seen =>
    obtain ⟨worldly, turn⟩ := Node.step_of_seen worldly sees
    simp only [Node.grants, sees, Option.bind_some, turn]
    have course := x.node.session.step_course seen
    cases Session.application_course applying worldly course with
    | goesOn untaken calls applying =>
      have asks : ∀ effect ∈ (x.node.session.step seen).2,
          ∃ call request, effect = .call call request := by
        intro effect member
        obtain ⟨call, same⟩ := calls effect member
        exact ⟨call, .register registration, same⟩
      have none : failures (x.node.session.step seen).2 = [] ∧
          Session.revocations (x.node.session.step seen).2 = [] := by
        constructor
        · refine List.filterMap_eq_nil_iff.mpr fun effect member => ?_
          obtain ⟨call, rfl⟩ := calls effect member
          rfl
        · refine List.filterMap_eq_nil_iff.mpr fun effect member => ?_
          obtain ⟨call, rfl⟩ := calls effect member
          rfl
      simp only [Node.ofSession, untaken, heed_of_calls asks, none.1]
      refine ⟨works, ?_⟩
      rw [none.2]
      exact .registering progress free applying
    | fails untaken effects =>
      simp only [Node.ofSession, effects, heed_finish, untaken, goOn, progress, registered]
      apply accounts_conclude
      · exact works
      · exact applying.few
      · exact Nat.zero_le 1
      · rfl
      · rfl
    | succeeds took answered effects standing =>
      simp only [Node.ofSession, effects, heed_finish, took, answered, goOn, progress]
      apply accounts_registered
      · exact works
      · exact free
      · exact standing

/-- While the exchange is dialed or the client is at work, the session goes on by itself. -/
theorem accounts_standing (works : x.command ≠ .register) (worldly : happens.isWorldly)
    (standing : x.node.session.Standing identity) (sees : x.node.seen? happens = some seen)
    (spared : x.node.session.Spared seen)
    (ledger : ∀ n : Node, n.session.Standing identity → n.errands = x.node.errands →
      Ledger registration { x with node := n } asked given granted failed) :
    x.node.grants happens = [] ∧ failures (x.node.step happens).2 = [] ∧
      Accounts registration asked given granted failed
        (heed { x with node := (x.node.step happens).1 } (x.node.step happens).2) := by
  obtain ⟨worldly, turn⟩ := Node.step_of_seen worldly sees
  obtain ⟨stands, routine⟩ :=
    Session.standing_course standing spared worldly (x.node.session.step_course seen)
  have untaken := (standing.tended leaveJob).taken?_eq_none seen
  refine ⟨by simp [Node.grants, sees, untaken], ?_, ?_⟩
  · rw [turn]
    exact failures_of_routine routine
  · simp only [turn, Node.ofSession, routine_unheeded routine]
    exact .of_quiet works (Session.registrations_of_routine routine)
      (Session.revocations_of_routine routine) (ledger _ stands rfl)

theorem accounts_opening (works : x.command ≠ .register) (progress : x.progress = .opening)
    (dialing : x.node.Dialing) (standing : x.node.session.Standing identity)
    (worldly : happens.isWorldly)
    (spared : ∀ seen ∈ x.node.seen? happens, x.node.session.Spared seen) :
    x.node.grants happens = [] ∧
      Accounts registration [registration] [] [identity] (failures (x.node.step happens).2)
        (heed { x with node := (x.node.step happens).1 } (x.node.step happens).2) := by
  cases sees : x.node.seen? happens with
  | some seen =>
    have stays (n : Node) (stands : n.session.Standing identity)
        (errands : n.errands = x.node.errands) :
        Ledger registration { x with node := n } [registration] [] [identity] [] :=
      .opening progress (fun job errand found => dialing job errand (errands ▸ found)) stands
    obtain ⟨grants, fails, accounts⟩ :=
      accounts_standing works worldly standing sees (spared seen sees) stays
    exact ⟨grants, fails ▸ accounts⟩
  | none =>
    have errands := Node.errands_of_unseen worldly sees
    have grants : x.node.grants happens = [] := by simp [Node.grants, sees]
    have notAsking {job : Nat} {errand : Errand} (found : x.node.errands.get? job = some errand)
        (other : ∀ channelType argument patience,
          errand ≠ .dialing client channelType argument patience) : False := by
      obtain ⟨-, channelType, argument, patience, same⟩ := dialing job errand found
      exact other channelType argument patience same
    have free (outcome : Outcome) : (x.node.finish openJob outcome).1.Free :=
      Node.free_of_finish (fun other errand found => (dialing other errand found).1) outcome
    have openFails : openJob ≠ leaveJob := by decide
    refine ⟨grants, ?_⟩
    generalize x.node.step happens = turn at errands
    cases errands with
    | idles => exact .of_quiet works rfl rfl (.opening progress dialing standing)
    | @connects job other channelType argument patience found =>
      obtain ⟨rfl, _, _, _, same⟩ := dialing _ _ found
      cases same
      obtain ⟨id, ids, issued, seeded⟩ :=
        IdGenerator.exists_issue standing.seeded x.node.session.world.clock
      simp only [Node.connect, issued, Node.finish, heed_finish, failures_finish openFails, goOn,
        progress]
      apply accounts_opened
      · exact works
      · exact free (.issued id)
      · exact ⟨standing.named, standing.reached, seeded, standing.idle, standing.beating⟩
      · intro _
        simp
    | @undialed job _ _ _ _ error found =>
      obtain ⟨rfl, -⟩ := dialing _ _ found
      simp only [Node.finish, heed_finish, failures_finish openFails, goOn, progress]
      apply accounts_opened
      · exact works
      · exact free (.failed error)
      · exact standing
      · simp [Outcome.failure?]
    | answered _ found | receives found | ends _ found =>
      exact (notAsking found (by simp)).elim

/-- A record that is shown has been counted, and that is all. -/
theorem accounts_display {job : Nat} (works : x.command ≠ .register)
    (progress : x.progress = .operating) (operating : x.node.Operating)
    (standing : x.node.session.Standing identity) (item : Item) :
    Accounts registration [registration] [] [identity] []
      (x.heed [.deliver job item, .pull job]) := by
  cases item with
  | advert | message | finish =>
    exact .of_quiet works rfl rfl (.operating progress operating
      ⟨standing.named, standing.reached, standing.seeded, standing.idle, standing.beating⟩)

theorem accounts_operating (works : x.command ≠ .register) (progress : x.progress = .operating)
    (operating : x.node.Operating) (standing : x.node.session.Standing identity)
    (worldly : happens.isWorldly)
    (spared : ∀ seen ∈ x.node.seen? happens, x.node.session.Spared seen) :
    x.node.grants happens = [] ∧
      Accounts registration [registration] [] [identity] (failures (x.node.step happens).2)
        (heed { x with node := (x.node.step happens).1 } (x.node.step happens).2) := by
  cases sees : x.node.seen? happens with
  | some seen =>
    have stays (n : Node) (stands : n.session.Standing identity)
        (errands : n.errands = x.node.errands) :
        Ledger registration { x with node := n } [registration] [] [identity] [] :=
      .operating progress (fun job errand found => operating job errand (errands ▸ found)) stands
    obtain ⟨grants, fails, accounts⟩ :=
      accounts_standing works worldly standing sees (spared seen sees) stays
    exact ⟨grants, fails ▸ accounts⟩
  | none =>
    have errands := Node.errands_of_unseen worldly sees
    have grants : x.node.grants happens = [] := by simp [Node.grants, sees]
    have ends (n : Node) (stands : n.session.Standing identity)
        (errands : n.errands = x.node.errands) (outcome : Outcome) :
        Accounts registration [registration] [] [identity]
          (failures (n.finish operateJob outcome).2)
          (heed { x with node := (n.finish operateJob outcome).1 }
            (n.finish operateJob outcome).2) := by
      have free := Node.free_of_finish
        (fun other errand found => (operating other errand (errands ▸ found)).1) outcome
      have operateFails : operateJob ≠ leaveJob := by decide
      simp only [Node.finish, heed_finish, failures_finish operateFails, goOn, progress]
      apply accounts_operated
      · exact works
      · exact free
      · exact stands
    have accepted (guarded : Bool) (switch : StopSwitch) (job : Nat) (errand : Errand)
        (found : (x.node.errands.set operateJob (.receiving guarded switch)).get? job =
          some errand) : job = operateJob ∧
          ((∃ client pending wait switch, errand = .asking client pending wait switch) ∨
            ∃ guarded switch, errand = .receiving guarded switch) := by
      rcases Table.of_get?_set found with ⟨rfl, rfl⟩ | ⟨-, before⟩
      · exact ⟨rfl, .inr ⟨_, _, rfl⟩⟩
      · exact operating job errand before
    refine ⟨grants, ?_⟩
    generalize x.node.step happens = turn at errands
    cases errands with
    | idles => exact .of_quiet works rfl rfl (.operating progress operating standing)
    | connects found | undialed found =>
      obtain ⟨-, ⟨_, _, _, _, same⟩ | ⟨_, _, same⟩⟩ := operating _ _ found
      · cases same
      · cases same
    | answered reply found =>
      obtain ⟨rfl, -⟩ := operating _ _ found
      have stands (proposals : Proposals) :
          Session.Standing { x.node.session with proposals } identity :=
        ⟨standing.named, standing.reached, standing.seeded, standing.idle, standing.beating⟩
      simp only [Node.errandAnswered]
      split
      · exact .of_quiet works rfl rfl (.operating progress operating standing)
      · split
        · exact .of_quiet works rfl rfl (.operating progress (accepted _ _) (stands _))
        · exact .of_quiet works rfl rfl (.operating progress (accepted _ _) (stands _))
        · apply ends
          · exact stands _
          · rfl
    | receives found pulls =>
      obtain rfl | ⟨item, rfl⟩ := pulls
      · exact .of_quiet works rfl rfl (.operating progress operating standing)
      · exact accounts_display works progress operating standing item
    | ends outcome found =>
      obtain ⟨rfl, -⟩ := operating _ _ found
      exact ends x.node standing rfl outcome

theorem accounts_leaving {farewell : Option Line} {failure : Option NodeError}
    (works : x.command ≠ .register) (progress : x.progress = .leaving farewell failure)
    (free : x.node.Free) (tended : x.node.session.Tended leaveJob) (live : identity.isLive)
    (first : failed.head? = failure) (worldly : happens.isWorldly)
    (spared : ∀ seen ∈ x.node.seen? happens, x.node.session.Spared seen) :
    x.node.grants happens = [] ∧ failures (x.node.step happens).2 = [] ∧
      Accounts registration [registration] [identity] [identity] failed
        (heed { x with node := (x.node.step happens).1 } (x.node.step happens).2) := by
  cases sees : x.node.seen? happens with
  | none =>
    have errands := Node.errands_of_unseen worldly sees
    have grants : x.node.grants happens = [] := by simp [Node.grants, sees]
    refine ⟨grants, ?_⟩
    generalize x.node.step happens = turn at errands
    cases errands with
    | idles => exact ⟨rfl, .of_quiet works rfl rfl (.leaving progress free tended live first)⟩
    | connects found | undialed found | answered _ found | receives found | ends _ found =>
      rw [free] at found
      cases found
  | some seen =>
    obtain ⟨worldly, turn⟩ := Node.step_of_seen worldly sees
    refine ⟨by simp [Node.grants, sees, tended.taken?_eq_none seen], ?_⟩
    cases Session.tended_course tended (spared seen sees) worldly
      (x.node.session.step_course seen) with
    | goesOn tended routine =>
      simp only [turn, Node.ofSession, routine_unheeded routine]
      exact ⟨failures_of_routine routine, .of_quiet works
        (Session.registrations_of_routine routine) (Session.revocations_of_routine routine)
        (.leaving progress free tended live first)⟩
    | ends effects =>
      simp only [turn, Node.ofSession, effects, heed_finish, goOn, progress]
      refine ⟨rfl, ?_⟩
      apply accounts_conclude
      · exact works
      · exact .inr rfl
      · exact Nat.le_refl 1
      · simp [live]
      · exact first

theorem accounts_interrupt (works : x.command ≠ .register)
    (ledger : Ledger registration x asked given granted failed) :
    Accounts registration asked given granted failed x.interrupt := by
  cases command : x.command with
  | register => exact absurd command works
  | advertise =>
    simp only [interrupt, command]
    exact .of_quiet works rfl rfl ledger
  | watch =>
    cases progress : x.progress with
    | registering =>
      simp only [interrupt, command, progress]
      exact .of_quiet works rfl rfl ledger
    | _ =>
      simp only [interrupt, command, progress]
      apply Accounts.of_quiet
      · exact nofun
      · rfl
      · rfl
      · exact ledger_of_signal ledger progress.symm rfl

theorem receive_of_ledger (ledger : Ledger registration x asked given granted failed) :
    x.receive = (x, []) := by
  cases ledger with
  | registering progress | opening progress | operating progress | leaving progress
  | ended progress => simp only [receive, progress]

/-- Whatever happens, the books stay right. -/
theorem accounts_step (works : x.command ≠ .register)
    (ledger : Ledger registration x asked given granted failed) (spared : Spared x event) :
    Accounts registration asked given (granted ++ (x.world? event).elim [] x.node.grants)
      (failed ++ (x.world? event).elim [] fun event => failures (x.node.step event).2)
      (x.step event) := by
  cases world : x.world? event with
  | none =>
    simp only [Option.elim, List.append_nil]
    obtain turn | turn | turn := step_of_unworldly world
    · rw [turn]
      exact .of_quiet works rfl rfl ledger
    · rw [turn]
      exact accounts_interrupt works ledger
    · rw [turn, receive_of_ledger ledger]
      exact .of_quiet works rfl rfl ledger
  | some happens =>
    obtain ⟨lives, worldly, turn⟩ := step_of_world world
    have spared := spared happens world
    simp only [Option.elim, turn]
    cases ledger with
    | registering progress free applying =>
      exact accounts_registering works progress free applying worldly
    | opening progress dialing standing =>
      obtain ⟨grants, accounts⟩ :=
        accounts_opening works progress dialing standing worldly spared
      rw [grants]
      exact accounts
    | operating progress operating standing =>
      obtain ⟨grants, accounts⟩ :=
        accounts_operating works progress operating standing worldly spared
      rw [grants]
      exact accounts
    | leaving progress free tended live first =>
      obtain ⟨grants, fails, accounts⟩ :=
        accounts_leaving works progress free tended live first worldly spared
      rw [grants, fails, List.append_nil, List.append_nil]
      exact accounts
    | ended progress => simp [hasEnded, progress] at lives

end

end Execution

end ExchangeNode
