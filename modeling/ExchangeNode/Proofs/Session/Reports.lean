import Mathlib
import ExchangeNode.Proofs.Session.Heartbeats
import ExchangeNode.Proofs.Session.Renewal

/-!
# What servers report

A server tells the directory how many messages it has handled, and counts anew from each heartbeat
that says so. The report is kept with the heartbeat record, which lasts from one heartbeat to the
next and through new registrations of the loop; only a registration of the user blanks it. So
whether the record holds a report agrees at all times with what the node is registered as.

`reports_add_handled` says that no message is lost or told twice, and which heartbeats report.
-/

namespace ExchangeNode

/-- How many messages a heartbeat reports. -/
def Heartbeat.reported (heartbeat : Heartbeat) : Nat :=
  heartbeat.load.elim 0 (·.handled.toNat)

namespace Session

/-- Whether an event is a message that was handled. -/
def Event.counts : Event → Bool
  | .countMessage => true
  | _ => false

/-- How many messages the heartbeats among effects report. -/
def reported (effects : List Effect) : Nat :=
  ((heartbeats effects).map Heartbeat.reported).sum

/-- The heartbeat record holds a report only while the node is registered as a server. -/
def Reports (s : Session) : Prop := s.heartbeat.load.isSome → s.isServer

variable {s : Session} {event : Event} {turn : Turn}

/-! ### Which heartbeats report -/

theorem load_nextHeartbeat (reports : Reports s) : s.nextHeartbeat.load.isSome = s.isServer := by
  simp only [nextHeartbeat]
  split
  next server => exact server.symm
  -- The record of a node that is no server holds no report that could be repeated.
  next other =>
    have blank : ¬ s.heartbeat.load.isSome := fun held => other (reports held)
    rw [eq_false_of_ne_true blank, eq_false_of_ne_true other]

theorem reports_course (reports : Reports s) (course : Course s event turn) : Reports turn.1 := by
  cases course with
  | adopts | forgets => exact nofun
  | beats => exact fun held => (load_nextHeartbeat reports).symm.trans held
  | _ => exact reports

theorem reports_fresh (options : KeepAliveOptions) (world : Surroundings) :
    Reports (fresh options world) := by
  simp [Reports, fresh, Heartbeat.blank]

theorem reports_run (options : KeepAliveOptions) (world : Surroundings) (events : List Event) :
    Reports ((fresh options world).run events).1 :=
  run_invariant Reports (fun s event reports => reports_course reports (step_course s event))
    (reports_fresh options world) events

/-- A node that sends a heartbeat is a server just if it was registered as one. -/
theorem isServer_iff {info : Option Registration} (enlists : Enlists info s)
    (reached : s.directory.isSome) :
    s.isServer ↔ ∃ registration, info = some registration ∧ registration.nodeType = .server := by
  obtain ⟨registration, held⟩ := enlists.exists_registration reached
  rw [enlists.repeats registration held]
  simp [isServer, held]

theorem reached_of_heartbeat (course : Course s event turn) {heartbeat : Heartbeat}
    (sent : heartbeat ∈ heartbeats turn.2) :
    s.directory.isSome ∧ heartbeat = s.nextHeartbeat := by
  cases course with
  | beats _ _ _ reached => exact ⟨reached, List.mem_singleton.mp sent⟩
  | _ => cases sent

/-! ### What is counted and what is reported -/

/-- Only a heartbeat reports, and only a message that is handled is counted. -/
theorem handled_course (course : Course s event turn) (quiet : ∀ loop, event ≠ .wake loop)
    (other : event.counts = false) : reported turn.2 = 0 ∧ turn.1.handled = s.handled := by
  cases course with
  | beats => exact absurd rfl (quiet _)
  | counts => cases other
  | _ => exact ⟨rfl, rfl⟩

/-- What a heartbeat reports has been counted, and counts no longer. -/
theorem reported_beat (reports : Reports s) (loop : Nat) (l : Liveness) :
    reported (s.beat loop l).2 + (s.beat loop l).1.handled.toNat = s.handled.toNat := by
  have load := load_nextHeartbeat reports
  simp only [beat]
  split
  next =>
    cases server : s.isServer with
    | true => simp [loopCalls, reported, heartbeats, nextHeartbeat, server, Heartbeat.reported]
    | false =>
      have blank : s.nextHeartbeat.load = none := by simpa [server] using load
      simp [loopCalls, reported, heartbeats, Heartbeat.reported, blank]
  next => simp [endLoop, reported, heartbeats]

theorem reported_wake (reports : Reports s) (loop : Nat) :
    reported (s.wake loop).2 + (s.wake loop).1.handled.toNat = s.handled.toNat := by
  have idle : ∀ t : Session, t.handled = s.handled →
      reported ((t, []) : Turn).2 + t.handled.toNat = s.handled.toNat := by
    intro t kept
    rw [kept]
    exact Nat.zero_add _
  simp only [wake]
  split
  next l found =>
    split
    · exact idle _ rfl
    · split
      · exact reported_beat reports loop l
      · exact idle _ rfl
    · exact idle _ rfl
  next => exact idle _ rfl

/-- A step conserves what is counted: it is kept, or it is reported. -/
theorem reported_step (reports : Reports s) (event : Event)
    (room : s.handled.toNat + [event].countP Event.counts < UInt64.size) :
    reported (s.step event).2 + (s.step event).1.handled.toNat =
      s.handled.toNat + [event].countP Event.counts := by
  have quietly : (∀ loop, event ≠ .wake loop) → event.counts = false →
      reported (s.step event).2 + (s.step event).1.handled.toNat =
        s.handled.toNat + [event].countP Event.counts := by
    intro quiet other
    obtain ⟨silent, kept⟩ := handled_course (step_course s event) quiet other
    simp [silent, kept, other]
  cases event with
  | wake loop => exact reported_wake reports loop
  | countMessage =>
    have exact : (s.handled + 1).toNat = s.handled.toNat + 1 := by
      rw [UInt64.toNat_add]
      exact Nat.mod_eq_of_lt room
    simpa [step, reported, heartbeats, Event.counts] using exact
  | _ => exact quietly (by simp) rfl

theorem reported_append (first more : List Effect) :
    reported (first ++ more) = reported first + reported more := by
  simp only [reported, heartbeats_append, List.map_append, List.sum_append]

/-- Over a run, what is counted in the end is what was there and what has come in, less what has
been reported. -/
theorem reported_run (reports : Reports s) (events : List Event)
    (room : s.handled.toNat + events.countP Event.counts < UInt64.size) :
    reported (s.run events).2 + (s.run events).1.handled.toNat =
      s.handled.toNat + events.countP Event.counts := by
  induction events generalizing s with
  | nil => exact Nat.zero_add _
  | cons event rest ih =>
    have split : (event :: rest).countP Event.counts =
        [event].countP Event.counts + rest.countP Event.counts := by
      rw [← List.countP_append, List.singleton_append]
    have first := reported_step reports event (by omega)
    have later := ih (reports_course reports (step_course s event)) (by omega)
    simp only [run_cons, reported_append]
    omega

/-- The heartbeats of a run report together as many messages as have been handled, less those that
are still counted; and a heartbeat reports just if the node is registered as a server when it is
sent. -/
theorem reports_add_handled (options : KeepAliveOptions) (world : Surroundings)
    (events : List Event) (few : events.countP Event.counts < UInt64.size) :
    ((heartbeats ((fresh options world).run events).2).map Heartbeat.reported).sum +
        ((fresh options world).run events).1.handled.toNat = events.countP Event.counts ∧
      ∀ before event after, events = before ++ event :: after →
        ∀ heartbeat ∈ heartbeats (((fresh options world).run before).1.step event).2,
          (heartbeat.load.isSome ↔ ∃ registration,
            (fresh options world).enlisted none before = some registration ∧
              registration.nodeType = .server) := by
  constructor
  · have room : (fresh options world).handled.toNat + events.countP Event.counts < UInt64.size := by
      simpa [fresh] using few
    simpa [fresh, reported] using reported_run (reports_fresh options world) events room
  · intro before event after _ heartbeat sent
    obtain ⟨reached, rfl⟩ := reached_of_heartbeat (step_course _ event) sent
    rw [load_nextHeartbeat (reports_run options world before)]
    exact isServer_iff (enlists_run (enlists_fresh options world) before) reached

/-- A server reports two messages with a heartbeat that nobody answers. Then it registers again, as
a provider, with a third message counted. -/
def demoted : List Event :=
  [.register 0 "127.0.0.1:9000" (.ofNode "exchange-1" [10] (some .standard)),
    .answer 0 (grant 7 1007), .wake 0, .countMessage, .countMessage, .elapse 5000, .wake 0,
    .countMessage, .elapse 10000, .timeout 1,
    .register 1 "127.0.0.1:9000" (.ofNode "exchange-1" [10] none), .heed 0, .proceed 1,
    .answer 2 (grant 8 1008), .wake 1, .elapse 5000, .wake 1]

theorem reports_add_handled_of_demoted :
    let turn := (fresh .standard stillWorld).run demoted
    (heartbeats turn.2).map (·.load.map (·.handled)) = [some 2, none] ∧ turn.1.handled = 1 ∧
      demoted.countP Event.counts < UInt64.size ∧
      ((heartbeats turn.2).map Heartbeat.reported).sum + turn.1.handled.toNat =
        demoted.countP Event.counts ∧
      ∀ before event after, demoted = before ++ event :: after →
        ∀ heartbeat ∈ heartbeats (((fresh .standard stillWorld).run before).1.step event).2,
          (heartbeat.load.isSome ↔ ∃ registration,
            (fresh .standard stillWorld).enlisted none before = some registration ∧
              registration.nodeType = .server) :=
  ⟨by decide, by decide, by decide, reports_add_handled .standard stillWorld demoted (by decide)⟩

end Session

end ExchangeNode
