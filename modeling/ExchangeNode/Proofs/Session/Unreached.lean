import ExchangeNode.Proofs.Session.Refusal
import ExchangeNode.Proofs.Session.Revocation

/-!
# Registrations that fail

A registration fails where the directory is dialed, or where it is asked. In the second case the
session drops whatever is left of the registration before. In the first it has not come to that: the
session goes on as if nobody had tried to register.
-/

namespace ExchangeNode

namespace Session

/-- Nothing of a registration is left. -/
structure Blank (s : Session) : Prop where
  phase : s.phase = .unregistered
  identity : s.identity = none
  directory : s.directory = none
  registration : s.registration = none
  unseeded : s.ids.node = none
  ended : ∀ k, ¬ s.Alive k

/-- How a job that registers returns an error. -/
inductive FailsToRegister (s : Session) (job : Nat) : Event → Work → NodeError → Prop where
  /-- The directory cannot be dialed. -/
  | unreached {address registration e} :
      FailsToRegister s job (.dialed job (.error e)) (.dialing address registration) (.wire e)
  /-- The directory refuses, or does not answer as it should. -/
  | refused {event wait directory registration reply error}
      (hears : s.jobHears? event = some (job, .registering wait directory registration, reply))
      (refused : refusal? reply = some error) :
      FailsToRegister s job event (.registering wait directory registration) error

variable {s : Session} {event : Event} {job : Nat} {work : Work} {error : NodeError}

/-- These are all ways to fail. -/
theorem failsToRegister_of_failed (isJob : s.jobs.get? job = some work) (registers : work.registers)
    (lasting : event.job? ≠ some job) (failed : .finish job (.failed error) ∈ (s.step event).2) :
    FailsToRegister s job event work error := by
  have course := step_course s event
  generalize turned : s.step event = turn at course failed
  cases course with
  | undialed dialing =>
    obtain ⟨rfl, same⟩ := Effect.finish.inj (List.mem_singleton.mp failed)
    cases same
    obtain rfl := Option.some.inj (isJob.symm.trans dialing)
    exact .unreached
  | @forgets _ _ wait directory registration reply _ hears =>
    obtain ⟨rfl, same⟩ := Effect.finish.inj (List.mem_singleton.mp failed)
    cases same
    obtain rfl := Option.some.inj (isJob.symm.trans (jobHears?_spec hears))
    have answered : s.registered job directory registration (judge .register reply) =
        s.forget.finish job (.failed error) := (step_of_jobHears? hears).symm.trans turned
    rw [← answered] at failed
    exact .refused hears (failed_iff.mp failed)
  | unregistersInVain | issues =>
    obtain ⟨rfl, -⟩ := Effect.finish.inj (List.mem_singleton.mp failed)
    exact absurd rfl lasting
  | _ => simp [finish, jobCalls, loopCalls, apply] at failed

/-- A dial that fails leaves the session as it is. -/
theorem step_of_unreached {address : String} {registration : Registration} {e : WireError}
    (dialing : s.jobs.get? job = some (.dialing address registration)) :
    s.step (.dialed job (.error e)) = s.finish job (.failed (.wire e)) := by
  simp only [step, dialed, dialing]

/-- A refusal leaves nothing behind but loops that have not ended. -/
theorem step_of_refused {wait : Wait} {directory : String} {registration : Registration}
    {reply : Option Reply}
    (hears : s.jobHears? event = some (job, .registering wait directory registration, reply))
    (refused : refusal? reply = some error) :
    s.step event = s.forget.finish job (.failed error) := by
  rw [step_of_jobHears? hears]
  exact registered_of_refused refused

theorem blank_finish (s : Session) (job : Nat) (outcome : Outcome) :
    Blank (s.finish job outcome).1 ↔ Blank s :=
  ⟨fun ⟨phase, identity, directory, registration, unseeded, ended⟩ =>
      ⟨phase, identity, directory, registration, unseeded, ended⟩,
    fun ⟨phase, identity, directory, registration, unseeded, ended⟩ =>
      ⟨phase, identity, directory, registration, unseeded, ended⟩⟩

theorem blank_forget (s : Session) : Blank s.forget ↔ ∀ k, ¬ s.Alive k :=
  ⟨fun blank => blank.ended, fun ended => ⟨rfl, rfl, rfl, rfl, rfl, ended⟩⟩

/-- A registration that fails, after any events. It returns its error and does nothing else. Either
the directory was not reached: then the session is left as it was. Or the directory was asked: then
the session drops its registration, and with calls that do not overlap nothing of it is left. -/
theorem blank_after_failure (options : KeepAliveOptions) (world : Surroundings)
    (past : List Event) (event : Event) (job : Nat) (work : Work) (error : NodeError)
    (isJob : ((fresh options world).run past).1.jobs.get? job = some work)
    (registers : work.registers) (lasting : event.job? ≠ some job)
    (failed : .finish job (.failed error) ∈ (((fresh options world).run past).1.step event).2) :
    let s := ((fresh options world).run past).1
    let t := (s.step event).1
    (s.step event).2 = [.finish job (.failed error)] ∧
    ((∃ address registration, work = .dialing address registration ∧
        t = { s with jobs := s.jobs.erase job } ∧ (Blank t ↔ Blank s)) ∨
      ∃ wait directory registration, work = .registering wait directory registration ∧
        (Blank t ↔ ∀ k, ¬ s.Alive k) ∧
        (Throughout Unhurried (fresh options world) past → Blank t)) := by
  intro s t
  have fails : FailsToRegister s job event work error :=
    failsToRegister_of_failed isJob registers lasting failed
  cases fails with
  | @unreached address registration e =>
    have turn : s.step (.dialed job (.error e)) = s.finish job (.failed (.wire e)) :=
      step_of_unreached isJob
    refine ⟨congrArg Prod.snd turn, .inl ⟨address, registration, rfl, congrArg Prod.fst turn, ?_⟩⟩
    rw [show t = _ from congrArg Prod.fst turn]
    exact blank_finish s job _
  | @refused event wait directory registration reply error hears refused =>
    have turn : s.step event = s.forget.finish job (.failed error) := step_of_refused hears refused
    have blank : Blank t ↔ ∀ k, ¬ s.Alive k := by
      rw [show t = _ from congrArg Prod.fst turn, blank_finish, blank_forget]
    refine ⟨congrArg Prod.snd turn, .inr ⟨wait, directory, registration, rfl, blank, ?_⟩⟩
    intro unhurried
    have tidy : Tidy s := tidy_run (tidy_fresh options world) unhurried
    exact blank.mpr (tidy.no_loops isJob).2

/-- A node registers at another directory, which is reached once the loop has ended. -/
def registersElsewhere : List Event :=
  firstHeartbeat ++ [.dial 1 "127.0.0.1:9001" (.ofNode "sensor-1" [10] none), .dialed 1 (.ok ()),
    .answer 1 (command .nothing), .heed 0, .proceed 1]

/-- The other directory has no room, and nothing is left. -/
theorem blank_after_full_directory :
    let s := ((fresh .standard stillWorld).run registersElsewhere).1
    let full : Event := .answer 2 (.error (.remote 503 "full"))
    s.identity.isSome ∧
      (s.step full).2 = [.finish 1 (.failed (.wire (.remote 503 "full")))] ∧
      Blank (s.step full).1 := by
  intro s full
  have registering : s.jobs.get? 1 = some (.registering ⟨2, 15000⟩ "127.0.0.1:9001"
      (.ofNode "sensor-1" [10] none)) := by
    decide
  have unhurried : Throughout Unhurried (fresh .standard stillWorld) registersElsewhere := by
    decide
  have failed : .finish 1 (.failed (.wire (.remote 503 "full"))) ∈ (s.step full).2 := by decide
  obtain ⟨effects, ⟨_, _, dialing, -⟩ | ⟨_, _, _, -, -, blank⟩⟩ :=
    blank_after_failure .standard stillWorld registersElsewhere full 1 _ _ registering rfl
      (by decide) failed
  · cases dialing
  · exact ⟨by decide, effects, blank unhurried⟩

/-- Where no directory is reached, a node that was registered stays registered, with its heartbeats,
and one that was only seeded stays seeded. -/
theorem left_after_failed_dial :
    let dials (job : Nat) : Event := .dial job "127.0.0.1:9001" (.ofNode "sensor-1" [10] none)
    let fails (job : Nat) : Event := .dialed job (.error (.io .networkUnreachable))
    let registered := (fresh .standard stillWorld).run (firstHeartbeat ++ [dials 1, fails 1])
    let seeded := (fresh .standard stillWorld).run [.reseed 5, dials 0, fails 0]
    .finish 1 (.failed (.wire (.io .networkUnreachable))) ∈ registered.2 ∧
      registered.1.phase = .active ∧ registered.1.identity.isSome ∧
      registered.1.directory.isSome ∧ registered.1.registration.isSome ∧
      registered.1.ids.node = some 7 ∧ registered.1.Alive 0 ∧ ¬ Blank registered.1 ∧
      .finish 0 (.failed (.wire (.io .networkUnreachable))) ∈ seeded.2 ∧
      seeded.1.ids.node = some 5 ∧ ¬ Blank seeded.1 := by
  intro dials fails registered seeded
  have active : registered.1.phase = .active := by decide
  have seed : seeded.1.ids.node = some 5 := by decide
  refine ⟨by decide, active, by decide, by decide, by decide, by decide, rfl, fun blank => ?_,
    by decide, seed, fun blank => ?_⟩
  · rw [blank.phase] at active
    cases active
  · rw [blank.unseeded] at seed
    cases seed

end Session

end ExchangeNode
