import ExchangeNode.Proofs.Session.Heartbeats
import ExchangeNode.Proofs.Session.Waiting

/-!
# Calls that do not overlap

A user may wait for one call before the next, and a directory may take its time: then no call and
no round of a loop, from a heartbeat to the end of what it led to, finds that another has changed
the session meanwhile. `SequentialRun` are the runs in which it goes like that, and `AtRest` the
moments between calls and rounds.

What comes with an identity then comes and goes with it.
-/

namespace ExchangeNode

/-- Whether a job is a call that must not overlap others. -/
def Work.isCall : Work → Bool
  | .clearing _ _ _ | .registering _ _ _ | .revoking _ | .stopping _ => true
  | .dialing _ _ | .asking _ => false

theorem Work.plain_of_isCall {work : Work} (free : work.isCall = false) :
    work.loop? = none ∧ work.applies = false := by
  cases work <;> first | exact ⟨rfl, rfl⟩ | cases free

namespace Session

/-- No call of the user is under way, and no loop waits for the directory. -/
structure AtRest (s : Session) : Prop where
  calls : ∀ entry ∈ s.jobs.entries, entry.2.isCall = false
  rounds : ∀ entry ∈ s.loops.entries, entry.2.stage.wait? = none

instance (s : Session) : Decidable (AtRest s) :=
  decidable_of_iff ((∀ entry ∈ s.jobs.entries, entry.2.isCall = false) ∧
      ∀ entry ∈ s.loops.entries, entry.2.stage.wait? = none)
    ⟨fun ⟨calls, rounds⟩ => ⟨calls, rounds⟩, fun ⟨calls, rounds⟩ => ⟨calls, rounds⟩⟩

/-- Whether a call of the user begins with an event. -/
def beginsCall (s : Session) : Event → Bool
  | .unregister _ | .shutdown _ => true
  | event => (s.applicant? event).isSome

/-- The identity that the directory hands out with an event. -/
def Event.granted? : Event → Option Identity
  | .answer _ (.ok (.identity identity)) => some identity
  | _ => none

def Event.reseeds : Event → Bool
  | .reseed _ => true
  | _ => false

/-- An event that overlaps nothing, from a user who leaves the generator of ids alone and a
directory that hands out secrets. -/
structure Sequential (s : Session) (event : Event) : Prop where
  /-- Calls run to their end. -/
  complete : ∀ entry ∈ s.jobs.entries, event.job? = some entry.1 → entry.2.isCall = false
  /-- A call begins when nothing else is under way. -/
  alone : s.beginsCall event → AtRest s
  /-- So does the round of a loop. -/
  apart : heartbeats (s.step event).2 ≠ [] → ∀ entry ∈ s.jobs.entries, entry.2.isCall = false
  seeded : event.reseeds = false
  secret : ∀ identity, event.granted? = some identity → identity.secret ≠ 0

instance (s : Session) (event : Event) : Decidable (Sequential s event) :=
  decidable_of_iff
    ((∀ entry ∈ s.jobs.entries, event.job? = some entry.1 → entry.2.isCall = false) ∧
      (s.beginsCall event → AtRest s) ∧
      (heartbeats (s.step event).2 ≠ [] → ∀ entry ∈ s.jobs.entries, entry.2.isCall = false) ∧
      event.reseeds = false ∧ ∀ identity ∈ event.granted?, identity.secret ≠ 0)
    ⟨fun ⟨complete, alone, apart, seeded, secret⟩ => ⟨complete, alone, apart, seeded, secret⟩,
      fun ⟨complete, alone, apart, seeded, secret⟩ => ⟨complete, alone, apart, seeded, secret⟩⟩

/-- A run of such events. -/
def SequentialRun (s : Session) : List Event → Prop
  | [] => True
  | event :: rest => Sequential s event ∧ (s.step event).1.SequentialRun rest

instance decidableSequentialRun (s : Session) :
    (events : List Event) → Decidable (SequentialRun s events)
  | [] => .isTrue trivial
  | event :: rest =>
    have := decidableSequentialRun (s.step event).1 rest
    inferInstanceAs (Decidable (_ ∧ _))

/-! ### What is kept with the identity -/

/-- What comes with an identity is there just when the identity is. -/
structure Held (s : Session) : Prop where
  directory : s.identity = none ↔ s.directory = none
  registration : s.identity = none ↔ s.registration = none
  seed : s.identity = none ↔ s.ids.node = none
  named : Named s
  bare : s.identity = none → s.heartbeat.secret = 0

variable {s t : Session} {event : Event} {turn : Turn}

theorem node_reseed {n : Int} {g : IdGenerator} (seeded : g.node ≠ none) :
    (g.reseed n).node ≠ none := by
  simp only [IdGenerator.reseed]
  split
  · exact nofun
  · exact seeded

theorem node_reseed_of_accepts {n : Int} (accepted : IdGenerator.accepts n) (g : IdGenerator) :
    (g.reseed n).node ≠ none := by
  simp only [IdGenerator.reseed]
  split
  · exact nofun
  next refused => simp [IdGenerator.accepts, refused, Except.toBool] at accepted

theorem held_fresh (options : KeepAliveOptions) (world : Surroundings) :
    Held (fresh options world) :=
  ⟨iff_of_true rfl rfl, iff_of_true rfl rfl, iff_of_true rfl rfl, nofun, fun _ => rfl⟩

/-- What comes with the identity stays with it, when a loop only registers again while there is
one. -/
theorem held_course (held : Held s) (course : Course s event turn) (seeded : event.reseeds = false)
    (renewed : ∀ loop l wait, s.loops.get? loop = some l → l.stage = .reconnecting wait →
      s.identity ≠ none) : Held turn.1 := by
  have named := named_course held.named course
  cases course with
  | adopts hears granted accepted =>
    exact ⟨iff_of_false nofun nofun, iff_of_false nofun nofun,
      iff_of_false nofun (node_reseed_of_accepts accepted _), named, nofun⟩
  | forgets =>
    exact ⟨iff_of_true rfl rfl, iff_of_true rfl rfl, iff_of_true rfl rfl, named, fun _ => rfl⟩
  -- A number that ids cannot be issued under leaves the generator as it was, and that was seeded.
  | renews hears reconnecting =>
    have before := renewed _ _ _ (loopHears?_spec hears).1 reconnecting
    exact ⟨iff_of_false nofun (mt held.directory.mpr before),
      iff_of_false nofun (mt held.registration.mpr before),
      iff_of_false nofun (node_reseed (mt held.seed.mpr before)), named, nofun⟩
  | revokes | revokesAtLast | leaves =>
    have same : s.identity.map Identity.revoked = none ↔ s.identity = none := Option.map_eq_none_iff
    exact ⟨same.trans held.directory, same.trans held.registration, same.trans held.seed, named,
      fun _ => rfl⟩
  | issues ids kind notDone node =>
    exact ⟨held.directory, held.registration, node ▸ held.seed, named, held.bare⟩
  | reseeds => cases seeded
  | _ => exact ⟨held.directory, held.registration, held.seed, named, held.bare⟩

end Session

end ExchangeNode
