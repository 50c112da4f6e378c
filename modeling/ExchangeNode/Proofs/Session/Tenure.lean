import ExchangeNode.Proofs.Session.Custody
import ExchangeNode.Proofs.Session.Sequential
import ExchangeNode.Proofs.Session.Solitude

/-!
# Registering once and giving up once

The user of a session registers it, lets it be for a while, gives it up, and does nothing else
meanwhile. As long as the directory orders no loop to move or to register again, the session does
what it is told and sends heartbeats, and it asks for nothing more.

`application_course`, `standing_course` and `tended_course` say for the three parts of such a tenure
what the world can make of it.
-/

namespace ExchangeNode.Session

/-- Whether the world causes an event, and not the user. -/
def Event.isWorldly : Event → Bool
  | .dialed _ _ | .answer _ _ | .timeout _ | .wake _ | .heed _ | .proceed _ | .release | .elapse _
  | .setClock _ | .setRandom _ | .setLoad _ _ => true
  | _ => false

/-- What a loop is told in answer to its heartbeat. -/
def ordered? (s : Session) (event : Event) : Option HeartbeatReply :=
  match s.loopHears? event with
  | some (_, ⟨_, _, .beating _⟩, reply) => (judge .keepAlive reply).toOption
  | _ => none

/-- No loop is told to move or to register again. -/
def Spared (s : Session) (event : Event) : Prop :=
  ∀ order ∈ s.ordered? event, order.command ≠ .serverChange ∧ order.command ≠ .reconnect

instance (s : Session) (event : Event) : Decidable (Spared s event) :=
  inferInstanceAs (Decidable
    (∀ order ∈ s.ordered? event, order.command ≠ .serverChange ∧ order.command ≠ .reconnect))

/-- All that loops wait for is the answer to a heartbeat. -/
def Beating (s : Session) : Prop :=
  ∀ k l wait, s.loops.get? k = some l → l.stage.wait? = some wait → l.stage = .beating wait

/-- A session sends heartbeats and does nothing else. -/
def Routine (effects : List Effect) : Prop :=
  ∀ effect ∈ effects, ∃ call heartbeat, effect = .call call (.keepAlive heartbeat)

/-- A registration is under way under a number, and nothing else. It has been asked for or not. -/
structure Applying (s : Session) (job : Nat) (registration : Registration)
    (asked : List Registration) : Prop where
  few : asked = [] ∨ asked = [registration]
  noLoops : ∀ k, s.loops.get? k = none
  unnamed : s.identity = none
  waiting : ∀ other work, s.jobs.get? other = some work → other = job ∧
    ((∃ address, work = .dialing address registration ∧ asked = []) ∨
      ∃ wait address, work = .registering wait address registration ∧ asked = [registration])

/-- Nothing is under way but, perhaps, giving up under a number. -/
structure Tended (s : Session) (job : Nat) : Prop where
  beating : Beating s
  leaving : ∀ other work, s.jobs.get? other = some work →
    other = job ∧ ((∃ wait, work = .revoking wait) ∨ ∃ loop, work = .stopping loop)

/-- The session is registered, and nothing is under way. -/
structure Standing (s : Session) (identity : Identity) : Prop where
  named : s.identity = some identity
  reached : s.directory.isSome
  seeded : s.ids.node ≠ none
  idle : ∀ job, s.jobs.get? job = none
  beating : Beating s

variable {s : Session} {event : Event} {turn : Turn} {job : Nat} {registration : Registration}
  {asked : List Registration} {identity : Identity}

theorem Standing.tended (standing : Standing s identity) (job : Nat) : Tended s job where
  beating := standing.beating
  leaving other _ found := by
    rw [standing.idle other] at found
    cases found

theorem Tended.not_registering (tended : Tended s job) {other : Nat} {work : Work}
    (found : s.jobs.get? other = some work) :
    work.registers = false ∧ ∀ wait, work ≠ .asking wait := by
  obtain ⟨-, ⟨wait, rfl⟩ | ⟨loop, rfl⟩⟩ := tended.leaving other work found
  · exact ⟨rfl, nofun⟩
  · exact ⟨rfl, nofun⟩

/-! ### Nothing is taken on -/

theorem taken?_eq_none
    (noRenewal : ∀ k l wait, s.loops.get? k = some l → l.stage ≠ .reconnecting wait)
    (unasked : Unasked s) (event : Event) : s.taken? event = none := by
  have renewed : s.renewed? event = none := by
    cases hears : s.loopHears? event with
    | none => simp only [renewed?, hears]
    | some entry =>
      obtain ⟨loop, l, reply⟩ := entry
      exact renewed?_of_loopHears? hears fun wait => noRenewal loop l wait (loopHears?_spec hears).1
  have adopted : s.adopted? event = none := by
    simp only [adopted?]
    split
    next hears => cases unasked _ _ (jobHears?_spec hears)
    · rfl
  rw [taken?, renewed, adopted]
  rfl

theorem Tended.taken?_eq_none (tended : Tended s job) (event : Event) : s.taken? event = none := by
  refine Session.taken?_eq_none ?_ (fun _ _ found => (tended.not_registering found).1) event
  intro k l wait found reconnecting
  have beating := tended.beating k l wait found (by rw [reconnecting]; rfl)
  rw [reconnecting] at beating
  cases beating

/-! ### Heartbeats go on -/

theorem order_of_spared (spared : Spared s event) {loop : Nat} {l : Liveness} {wait : Wait}
    {reply : Option Reply} {order : HeartbeatReply}
    (hears : s.loopHears? event = some (loop, l, reply)) (beating : l.stage = .beating wait)
    (answered : judge .keepAlive reply = .ok order) :
    order.command ≠ .serverChange ∧ order.command ≠ .reconnect := by
  refine spared order ?_
  obtain ⟨stopped, failures, _⟩ := l
  cases beating
  simp only [ordered?, hears, answered]
  rfl

theorem beating_course (beating : Beating s) (spared : Spared s event)
    (course : Course s event turn) :
    Beating turn.1 := by
  intro k l wait found waits
  obtain ⟨m, before, same⟩ | reached := stage_course course found
  · rw [← same] at waits ⊢
    exact beating k m wait before waits
  · generalize stage : l.stage = now at reached waits ⊢
    cases reached with
    | rests free =>
      rw [free] at waits
      cases waits
    | beats =>
      cases waits
      rfl
    | moves _ obeys =>
      obtain ⟨_, _, _, _, hears, isBeating, answered, ordered⟩ := obeys
      exact absurd ordered (order_of_spared spared hears isBeating answered).1
    | reconnects requested =>
      -- No loop was at this stage before, so one has just been ordered to register again.
      have impossible {m : Liveness} {wait : Wait} (before : s.loops.get? k = some m)
          (reconnecting : m.stage = .reconnecting wait) : False := by
        have isBeating := beating k m wait before (by rw [reconnecting]; rfl)
        rw [reconnecting] at isBeating
        cases isBeating
      cases course with
      | reconnects hears isBeating answered ordered =>
        exact absurd ordered (order_of_spared spared hears isBeating answered).2
      | applies =>
        obtain ⟨m, before, same, -⟩ := (stays_of_stopCurrent found).1
        exact (impossible before (same.trans stage)).elim
      | cleared => exact (impossible found stage).elim
      | _ => simp [finish, jobCalls, loopCalls] at requested

/-! ### The three parts of a tenure -/

theorem routine_nil : Routine [] := by simp [Routine]

theorem revocations_append (first more : List Effect) :
    revocations (first ++ more) = revocations first ++ revocations more :=
  List.filterMap_append

theorem registrations_of_routine {effects : List Effect} (routine : Routine effects) :
    registrations effects = [] := by
  refine List.filterMap_eq_nil_iff.mpr fun effect member => ?_
  obtain ⟨call, heartbeat, rfl⟩ := routine effect member
  rfl

theorem revocations_of_routine {effects : List Effect} (routine : Routine effects) :
    revocations effects = [] := by
  refine List.filterMap_eq_nil_iff.mpr fun effect member => ?_
  obtain ⟨call, heartbeat, rfl⟩ := routine effect member
  rfl

/-- What becomes of a session that is being given up, or has been left alone. -/
inductive Tends (s : Session) (job : Nat) (turn : Turn) : Prop where
  | goesOn (tended : Tended turn.1 job) (routine : Routine turn.2)
      (kept : (∀ other, s.jobs.get? other = none) →
        (∀ other, turn.1.jobs.get? other = none) ∧ Keeps True s turn.1)
  | ends (effects : turn.2 = [.finish job .done]) {work : Work}
      (busy : s.jobs.get? job = some work)

theorem tended_course (tended : Tended s job) (spared : Spared s event) (worldly : event.isWorldly)
    (course : Course s event turn) : Tends s job turn := by
  have beating := beating_course tended.beating spared course
  -- Most of the time the jobs stay as they are.
  have goesOn (jobs : turn.1.jobs = s.jobs) (keeps : Keeps True s turn.1)
      (routine : Routine turn.2) :
      Tends s job turn :=
    .goesOn ⟨beating, fun other work found => tended.leaving other work (jobs ▸ found)⟩ routine
      fun idle => ⟨fun other => jobs ▸ idle other, keeps⟩
  have notRegistering {other : Nat} {work : Work} (found : s.jobs.get? other = some work)
      (registers : work.registers) : False := by
    rw [(tended.not_registering found).1] at registers
    cases registers
  have spare {loop l wait reply order} (hears : s.loopHears? event = some (loop, l, reply))
      (isBeating : l.stage = .beating wait) (answered : judge .keepAlive reply = .ok order) :=
    order_of_spared spared hears isBeating answered
  have stuck {loop l wait reply} (hears : s.loopHears? event = some (loop, l, reply))
      (waits : l.stage.wait? = some wait) (other : l.stage ≠ .beating wait) : False :=
    other (tended.beating loop l wait (loopHears?_spec hears).1 waits)
  cases course with
  | misses | outside | releases => exact goesOn rfl ⟨rfl, rfl, rfl, fun _ => rfl⟩ routine_nil
  | undialed dialing => exact (notRegistering dialing rfl).elim
  | clears applies | applies applies =>
    obtain rfl | ⟨-, dialing⟩ := applicant?_spec applies
    · cases worldly
    · exact (notRegistering dialing rfl).elim
  | cleared clearing => exact (notRegistering clearing rfl).elim
  | adopts hears | forgets hears => exact (notRegistering (jobHears?_spec hears) rfl).elim
  | learns hears => exact ((tended.not_registering (jobHears?_spec hears)).2 _ rfl).elim
  | revokes hears busy =>
    have found := jobHears?_spec hears
    obtain ⟨rfl, -⟩ := tended.leaving _ _ found
    refine .goesOn ⟨beating, fun other work after => ?_⟩ routine_nil fun idle => ?_
    · rcases Table.of_get?_set after with ⟨rfl, rfl⟩ | ⟨-, before⟩
      · exact ⟨rfl, .inr ⟨_, rfl⟩⟩
      · exact tended.leaving other work before
    · rw [idle] at found
      cases found
  | revokesAtLast hears =>
    have found := jobHears?_spec hears
    obtain ⟨rfl, -⟩ := tended.leaving _ _ found
    exact .ends rfl found
  | stopped stopping =>
    obtain ⟨rfl, -⟩ := tended.leaving _ _ stopping
    exact .ends rfl stopping
  | starts | dies | heeds => exact goesOn rfl ⟨rfl, rfl, rfl, fun _ => rfl⟩ routine_nil
  | beats =>
    exact goesOn rfl ⟨rfl, rfl, rfl, fun _ => rfl⟩ fun effect member =>
      ⟨_, _, List.mem_singleton.mp member⟩
  | pauses | publishes => exact goesOn rfl ⟨rfl, rfl, rfl, fun _ => rfl⟩ routine_nil
  | reconnects hears isBeating answered ordered =>
    exact absurd ordered (spare hears isBeating answered).2
  | moves hears isBeating answered ordered | movesAtOnce hears isBeating answered ordered
  | defers hears isBeating answered ordered =>
    exact absurd ordered (spare hears isBeating answered).1
  | renews hears stage | staysAsItIs hears stage | leaves hears stage =>
    exact (stuck hears (by rw [stage]; rfl) (by rw [stage]; exact nofun)).elim
  | _ => cases worldly

/-- A session that is left alone stays registered as it is. -/
theorem standing_course (standing : Standing s identity) (spared : Spared s event)
    (worldly : event.isWorldly) (course : Course s event turn) :
    Standing turn.1 identity ∧ Routine turn.2 := by
  cases tended_course (standing.tended 0) spared worldly course with
  | goesOn tended routine kept =>
    obtain ⟨idle, keeps⟩ := kept standing.idle
    refine ⟨⟨keeps.identity.trans standing.named, keeps.directory ▸ standing.reached, ?_, idle,
      tended.beating⟩, routine⟩
    rw [keeps.seed trivial]
    exact standing.seeded
  | ends _ busy =>
    rw [standing.idle] at busy
    cases busy

/-- What becomes of a registration that is under way. -/
inductive Application (s : Session) (job : Nat) (registration : Registration)
    (asked : List Registration) (event : Event) (turn : Turn) : Prop where
  | goesOn (untaken : s.taken? event = none)
      (calls : ∀ effect ∈ turn.2, ∃ call, effect = .call call (.register registration))
      (applying : Applying turn.1 job registration (asked ++ registrations turn.2))
  | fails {error} (untaken : s.taken? event = none)
      (effects : turn.2 = [.finish job (.failed error)])
  | succeeds {new : Identity} (took : s.taken? event = some new) (answered : asked = [registration])
      (effects : turn.2 = [.finish job (.exchange new.exchangeAddress)])
      (standing : Standing turn.1 new)

theorem application_course (applying : Applying s job registration asked)
    (worldly : event.isWorldly) (course : Course s event turn) :
    Application s job registration asked event turn := by
  have passes := passes_course course
  have untaken (unnamed : turn.1.identity = none) : s.taken? event = none := by
    cases passes with
    | takes _ holds =>
      rw [unnamed] at holds
      cases holds
    | keeps took | revokes took | forgets took => exact took
  have idles (loops : turn.1.loops = s.loops) (jobs : turn.1.jobs = s.jobs)
      (identity : turn.1.identity = s.identity) (silent : turn.2 = []) :
      Application s job registration asked event turn := by
    have unnamed := identity.trans applying.unnamed
    refine .goesOn (untaken unnamed) (by simp [silent]) ⟨?_, ?_, unnamed, ?_⟩
    · rw [silent, show registrations [] = [] from rfl, List.append_nil]
      exact applying.few
    · rw [loops]
      exact applying.noLoops
    · rw [jobs, silent, show registrations [] = [] from rfl, List.append_nil]
      exact applying.waiting
  have noLoop {k : Nat} {l : Liveness} (found : s.loops.get? k = some l) : False := by
    rw [applying.noLoops] at found
    cases found
  cases course with
  | misses | outside | releases => exact idles rfl rfl rfl rfl
  | undialed dialing =>
    obtain ⟨rfl, -⟩ := applying.waiting _ _ dialing
    exact .fails (untaken applying.unnamed) rfl
  | clears _ busy =>
    obtain ⟨-, contains⟩ := Option.filter_eq_some_iff.mp busy
    obtain ⟨l, found⟩ := Option.isSome_iff_exists.mp contains
    exact (noLoop found).elim
  | applies applies idle =>
    obtain rfl | ⟨-, dialing⟩ := applicant?_spec applies
    · cases worldly
    · obtain ⟨rfl, ⟨address, same, rfl⟩ | ⟨_, _, same, -⟩⟩ := applying.waiting _ _ dialing
      · cases same
        refine .goesOn (untaken applying.unnamed) ?_ ⟨.inr rfl, ?_, applying.unnamed, ?_⟩
        · exact fun effect member => ⟨_, List.mem_singleton.mp member⟩
        · intro k
          cases found : s.stopCurrent.loops.get? k with
          | none => exact found
          | some l =>
            obtain ⟨⟨m, before, -⟩, -⟩ := stays_of_stopCurrent found
            exact (noLoop before).elim
        · intro other work found
          rcases Table.of_get?_set found with ⟨rfl, rfl⟩ | ⟨different, before⟩
          · exact ⟨rfl, .inr ⟨_, _, rfl, rfl⟩⟩
          · exact absurd (applying.waiting other work before).1 different
      · cases same
  | @adopts _ job wait directory registration reply identity hears granted accepted =>
    obtain ⟨rfl, ⟨_, same, -⟩ | ⟨_, _, same, answered⟩⟩ :=
      applying.waiting _ _ (jobHears?_spec hears)
    · cases same
    · cases same
      refine .succeeds ?_ answered rfl
        ⟨rfl, rfl, node_reseed_of_accepts accepted _, fun other => ?_,
          fun k l wait found waits => ?_⟩
      · rw [taken?_of_jobHears? hears]
        simp [adopted?, hears, granted, Except.toOption, accepted]
      · cases left : (s.jobs.erase job).get? other with
        | none => exact left
        | some work =>
          obtain ⟨different, before⟩ := Table.of_get?_erase left
          exact absurd (applying.waiting other work before).1 different
      -- The only loop is the one that has just been started.
      · obtain ⟨m, before, -⟩ | ⟨rfl, rfl⟩ := stays_of_set found
        · obtain ⟨⟨n, first, -⟩, -⟩ := stays_of_stopCurrent before
          exact (noLoop first).elim
        · cases waits
  | forgets hears =>
    obtain ⟨rfl, -⟩ := applying.waiting _ _ (jobHears?_spec hears)
    exact .fails (untaken rfl) rfl
  | cleared found | stopped found =>
    obtain ⟨-, ⟨_, same, -⟩ | ⟨_, _, same, -⟩⟩ := applying.waiting _ _ found
    · cases same
    · cases same
  | revokes hears | revokesAtLast hears | learns hears =>
    obtain ⟨-, ⟨_, same, -⟩ | ⟨_, _, same, -⟩⟩ := applying.waiting _ _ (jobHears?_spec hears)
    · cases same
    · cases same
  | starts found | beats found | dies found | heeds found => exact (noLoop found).elim
  | pauses hears | publishes hears | reconnects hears | renews hears | staysAsItIs hears
  | moves hears | movesAtOnce hears | defers hears | leaves hears =>
    exact (noLoop (loopHears?_spec hears).1).elim
  | _ => cases worldly

end ExchangeNode.Session
