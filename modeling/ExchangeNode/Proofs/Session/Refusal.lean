import ExchangeNode.Proofs.Session.Dormancy
import ExchangeNode.Proofs.Session.Moving

/-!
# Registrations that are refused

A registration may be refused, may not be answered in time, or may be answered with a number that
ids cannot be issued under. By then the call has already waited for the loop of the registration
before, and it drops whatever is left of that: the session is as one that was never registered. What
it counts across registrations stays, and so does what a round that was still in flight has done to
the proposals.

`afresh_of_refused` says so for the whole of a session.
-/

namespace ExchangeNode

/-- An empty table is one in which nothing is found. -/
theorem Table.eq_empty {α : Type} {t : Table α} (none : ∀ key, t.get? key = none) : t = empty := by
  obtain ⟨entries, distinct⟩ := t
  cases entries with
  | nil => rfl
  | cons entry rest =>
    have found : Table.get? ⟨entry :: rest, distinct⟩ entry.1 = some entry.2 :=
      Table.get?_of_mem List.mem_cons_self
    rw [none entry.1] at found
    cases found

namespace Session

/-- Why a registration fails: there is no answer in time, or an error, or an answer of another kind,
or a number that ids cannot be issued under. -/
def refusal? : Option Reply → Option NodeError
  | none => some (.timeout .register 10)
  | some (.error e) => some (.wire e)
  | some (.ok (.identity identity)) =>
    if 0 ≤ identity.node.toInt ∧ identity.node.toInt ≤ 1023 then none
    else some (.invalidNodeNumber identity.node.toInt)
  | some (.ok _) => some (.wire (.unexpectedResponse "register_node"))

/-- A session that was never registered, but for what it counts across registrations, its proposals
and who listens to it. -/
def afresh (s : Session) (options : KeepAliveOptions) : Session :=
  { fresh options s.world with
    heartbeat := { Heartbeat.blank with count := s.heartbeat.count }
    ids := { IdGenerator.unseeded with lastMs := s.ids.lastMs, sequence := s.ids.sequence }
    handled := s.handled
    proposals := s.proposals
    release := s.release
    commands := s.commands
    -- Numbers that have been given out are not used again.
    nextLoop := s.nextLoop
    nextCall := s.nextCall }

variable {s t : Session} {event : Event} {turn : Turn} {job : Nat} {directory : String}
  {registration : Registration} {reply : Option Reply}

/-! ### What is refused -/

theorem accepts_iff (n : Int) : IdGenerator.accepts n ↔ 0 ≤ n ∧ n ≤ 1023 := by
  simp only [IdGenerator.accepts, IdGenerator.nodeNumber]
  split
  next within => exact iff_of_true rfl (by omega)
  next outside => exact iff_of_false Bool.false_ne_true (by omega)

theorem registered_of_refused {error : NodeError} (refused : refusal? reply = some error) :
    s.registered job directory registration (judge .register reply) =
      s.forget.finish job (.failed error) := by
  match reply with
  | none =>
    cases refused
    rfl
  | some (.error e) =>
    cases refused
    rfl
  | some (.ok response) =>
    cases response with
    | identity identity =>
      simp only [refusal?, ← accepts_iff] at refused
      split at refused
      · cases refused
      next outside =>
        cases refused
        exact if_neg outside
    | _ =>
      cases refused
      rfl

theorem registered_of_granted (granted : refusal? reply = none) :
    ∃ address, (s.registered job directory registration (judge .register reply)).2 =
      [.finish job (.exchange address)] := by
  match reply with
  | some (.ok (.identity identity)) =>
    simp only [refusal?, ← accepts_iff] at granted
    split at granted
    next accepted =>
      have judged : judge .register (some (.ok (.identity identity))) = .ok identity := rfl
      exact ⟨identity.exchangeAddress, by simp only [registered, judged, accepted, if_true, finish]⟩
    next => cases granted

/-- A registration fails just when it was refused, and with the error that says why. -/
theorem failed_iff {error : NodeError} :
    .finish job (.failed error) ∈
        (s.registered job directory registration (judge .register reply)).2 ↔
      refusal? reply = some error := by
  cases refused : refusal? reply with
  | none =>
    have granted : ∃ address, (s.registered job directory registration (judge .register reply)).2 =
        [.finish job (.exchange address)] := registered_of_granted refused
    obtain ⟨address, effects⟩ := granted
    simp [effects]
  | some e =>
    rw [registered_of_refused refused]
    simp [finish, eq_comm]

/-! ### What is left -/

/-- The options that a session was made with. -/
theorem options_course (course : Course s event turn) :
    turn.1.backoff = s.backoff ∧ turn.1.moveWait = s.moveWait := by
  cases course <;> exact ⟨rfl, rfl⟩

theorem options_run (s : Session) (events : List Event) :
    (s.run events).1.backoff = s.backoff ∧ (s.run events).1.moveWait = s.moveWait :=
  run_invariant (fun t => t.backoff = s.backoff ∧ t.moveWait = s.moveWait)
    (fun t event kept =>
      have same := options_course (step_course t event)
      ⟨same.1.trans kept.1, same.2.trans kept.2⟩)
    ⟨rfl, rfl⟩ events

theorem forget_eq_afresh {options : KeepAliveOptions} (noLoops : s.loops = .empty)
    (idle : s.current = none) (backoff : s.backoff = (fresh options s.world).backoff)
    (moveWait : s.moveWait = (fresh options s.world).moveWait) :
    s.forget = { s.afresh options with jobs := s.jobs } := by
  simp only [forget, afresh, noLoops, idle, backoff, moveWait]
  rfl

/-- A release that is pending after a run was armed in the run, unless it was pending before. -/
theorem release_run {events : List Event} {due : Nat}
    (pending : (s.run events).1.release = some due) :
    s.release = some due ∨ ∃ earlier event later order, events = earlier ++ event :: later ∧
      Obeys (s.run earlier).1 event order := by
  induction events generalizing s with
  | nil => exact .inl pending
  | cons event rest ih =>
    obtain before | ⟨earlier, next, later, order, rfl, obeys⟩ := ih pending
    · obtain first | ⟨order, obeys⟩ := release_course (step_course s event) before
      · exact .inl first
      · exact .inr ⟨[], event, rest, order, rfl, obeys⟩
    · exact .inr ⟨event :: earlier, next, later, order, rfl, obeys⟩

theorem step_of_applicant (applies : s.applicant? event = some (job, directory, registration)) :
    s.step event = s.register job directory registration := by
  obtain rfl | ⟨rfl, dialing⟩ := applicant?_spec applies
  · rfl
  · simp only [step, dialed, dialing]

/-- A registration that begins calls a pending release off. -/
theorem release_register (s : Session) (job : Nat) (directory : String)
    (registration : Registration) :
    (s.register job directory registration).1.release = none := by
  have halted : s.halt.1.release = none := rfl
  simp only [register]
  split
  next stopped loop equal =>
    rw [equal] at halted
    exact halted
  next stopped equal =>
    rw [equal] at halted
    exact halted

/-- When the directory is asked, all loops have ended. -/
theorem Tidy.no_loops (tidy : Tidy s) {wait : Wait}
    (registering : s.jobs.get? job = some (.registering wait directory registration)) :
    s.current = none ∧ ∀ k, ¬ s.Alive k := by
  have idle := tidy.idle _ _ registering (.inr rfl)
  refine ⟨idle, fun k alive => ?_⟩
  obtain isCurrent | awaited := tidy.left _ _ k registering rfl alive
  · rw [idle] at isCurrent
    cases isCurrent
  · cases awaited

/-- A registration of a user whose calls do not overlap fails just when the directory refuses it. It
returns the reason, and the session is then as one that was never registered: nothing is under way
but questions, and a release is pending only if a round that was in flight has armed it since the
registration began. -/
theorem afresh_of_refused (options : KeepAliveOptions) (world : Surroundings)
    (before during : List Event) (start event : Event) (job : Nat) (wait : Wait)
    (directory : String) (registration : Registration) (reply : Option Reply)
    (unhurried : Throughout Unhurried (fresh options world) (before ++ start :: during))
    (begins : ((fresh options world).run before).1.applicant? start =
      some (job, directory, registration))
    (hears : ((fresh options world).run (before ++ start :: during)).1.jobHears? event =
      some (job, .registering wait directory registration, reply)) :
    let s := ((fresh options world).run (before ++ start :: during)).1
    (∀ error, .finish job (.failed error) ∈ (s.step event).2 ↔ refusal? reply = some error) ∧
    (∀ error, refusal? reply = some error →
      s.step event =
        ({ s.afresh options with jobs := s.jobs.erase job }, [.finish job (.failed error)]) ∧
      Dormant (s.step event).1) ∧
    ∀ due, s.release = some due → ∃ earlier answered later order,
      during = earlier ++ answered :: later ∧
      Obeys ((fresh options world).run (before ++ start :: earlier)).1 answered order := by
  intro s
  have tidy : Tidy s := tidy_run (tidy_fresh options world) unhurried
  have registering := jobHears?_spec hears
  obtain ⟨idle, ended⟩ := tidy.no_loops registering
  have turn : s.step event = s.registered job directory registration (judge .register reply) :=
    step_of_jobHears? hears
  refine ⟨fun error => ?_, fun error refused => ?_, fun due pending => ?_⟩
  · rw [turn]
    exact failed_iff
  · have noLoops : s.loops = .empty :=
      Table.eq_empty fun k => Option.not_isSome_iff_eq_none.mp (ended k)
    obtain ⟨backoff, moveWait⟩ := options_run (fresh options world) (before ++ start :: during)
    rw [turn, registered_of_refused refused, forget_eq_afresh noLoops idle backoff moveWait]
    refine ⟨rfl, fun other work found => ?_, fun k alive => nomatch alive⟩
    obtain ⟨different, isJob⟩ := Table.of_get?_erase found
    exact asking_of_not_intervenes fun intervenes =>
      different (tidy.solo registering rfl other work isJob intervenes)
  · let begun := (((fresh options world).run before).1.step start).1
    have since : ∀ events, ((fresh options world).run (before ++ start :: events)).1 =
        (begun.run events).1 := fun events => by rw [run_append, run_cons]
    have later : (begun.run during).1.release = some due := since during ▸ pending
    obtain first | ⟨earlier, answered, rest, order, same, obeys⟩ := release_run later
    · have called : begun.release = none := by
        simp only [begun, step_of_applicant begins, release_register]
      rw [called] at first
      cases first
    · exact ⟨earlier, answered, rest, order, same, (since earlier).symm ▸ obeys⟩

/-- The node has proposed something, and its first heartbeat is under way. -/
def proposing : List Event :=
  firstHeartbeat ++ [.track (⟨1, 0, 0, 10, "ride", .ofClock 0, "", 0, none⟩ : Supply)]

/-- A registration waits for the loop, and that is ordered to move first. -/
def orderedAtLast : List Event := [.answer 1 (command .serverChange), .heed 0, .proceed 1]

/-- The directory has no room. The release that the loop has armed on its way stays. -/
theorem afresh_of_full_directory :
    let start : Event := .register 1 "127.0.0.1:9000" (.ofNode "sensor-1" [10] none)
    let s := ((fresh .standard stillWorld).run (proposing ++ start :: orderedAtLast)).1
    let full : Reply := .error (.remote 503 "full")
    Throughout Unhurried (fresh .standard stillWorld) (proposing ++ start :: orderedAtLast) ∧
      s.identity.isSome ∧ s.heartbeat.count = 1 ∧ s.release = some 35000 ∧
      refusal? (some full) = some (.wire (.remote 503 "full")) ∧
      s.step (.answer 2 full) =
        ({ s.afresh .standard with jobs := s.jobs.erase 1 },
          [.finish 1 (.failed (.wire (.remote 503 "full")))]) ∧
      ∃ earlier answered later order, orderedAtLast = earlier ++ answered :: later ∧
        Obeys ((fresh .standard stillWorld).run (proposing ++ start :: earlier)).1 answered
          order := by
  intro start s full
  have unhurried :
      Throughout Unhurried (fresh .standard stillWorld) (proposing ++ start :: orderedAtLast) := by
    decide
  have hears : s.jobHears? (.answer 2 full) = some (1, .registering ⟨2, 15000⟩ "127.0.0.1:9000"
      (.ofNode "sensor-1" [10] none), some full) := rfl
  have pending : s.release = some 35000 := rfl
  obtain ⟨-, forgets, armed⟩ := afresh_of_refused .standard stillWorld proposing orderedAtLast start
    (.answer 2 full) 1 _ _ _ _ unhurried rfl hears
  exact ⟨unhurried, by decide, by decide, pending, rfl, (forgets _ rfl).1, armed 35000 pending⟩

end Session

end ExchangeNode
