import ExchangeNode.Proofs.Session.Custody
import ExchangeNode.Proofs.Session.Sequential

/-!
# The number that ids are issued under

A session issues ids under the number of its identity. A registration of the user that is answered
with a number outside the range of the generator fails. A new registration of the loop takes such a
number on, and the generator, which refuses it, goes on under the one before.

`seed_eq_node_iff` says that these are the only states in which the two differ, and that only a new
registration of a loop leads to them.
-/

namespace ExchangeNode

namespace IdGenerator

theorem node_of_reseed {n : Int} {node : Fin 1024} (accepted : nodeNumber n = .ok node)
    (g : IdGenerator) : (g.reseed n).node = some node := by
  simp only [reseed, accepted]

theorem nodeNumber_eq_ok_iff {n : Int} {node : Fin 1024} :
    nodeNumber n = .ok node ↔ (node.val : Int) = n := by
  have bound := node.isLt
  constructor
  · intro accepted
    simp only [nodeNumber] at accepted
    split at accepted
    · cases accepted
      simp only
      omega
    · cases accepted
  · rintro rfl
    have within : (0 : Int) ≤ node.val ∧ (node.val : Int) < 1024 := by omega
    simp only [nodeNumber, dif_pos within, Int.toNat_natCast]

end IdGenerator

namespace Session

/-- The generator has the number of the identity, if that is one it takes. -/
def Seeded (s : Session) : Prop :=
  ∀ identity node, s.identity = some identity →
    IdGenerator.nodeNumber identity.node.toInt = .ok node → s.ids.node = some node

variable {s : Session} {event : Event} {turn : Turn}

theorem seeded_course (seeded : Seeded s) (course : Course s event turn)
    (own : event.reseeds = false) : Seeded turn.1 := by
  cases course with
  -- Whoever takes an identity on hands its number to the generator.
  | adopts | renews =>
    rintro identity node ⟨⟩ accepted
    exact IdGenerator.node_of_reseed accepted s.ids
  | forgets => exact nofun
  -- Only the secret goes; the number stays on both sides.
  | revokes | revokesAtLast | leaves =>
    intro identity node held accepted
    obtain ⟨before, isHeld, rfl⟩ := Option.map_eq_some_iff.mp held
    exact seeded before node isHeld accepted
  | issues ids kind notDone same =>
    intro identity node held accepted
    exact same.trans (seeded identity node held accepted)
  | reseeds => cases own
  | _ => exact seeded

theorem seeded_run (seeded : Seeded s) {events : List Event}
    (own : ∀ event ∈ events, event.reseeds = false) : Seeded (s.run events).1 := by
  induction events generalizing s with
  | nil => exact seeded
  | cons event rest ih =>
    have first := seeded_course seeded (step_course s event) (own event List.mem_cons_self)
    exact ih first fun next member => own next (.tail _ member)

theorem seeded_fresh (options : KeepAliveOptions) (world : Surroundings) :
    Seeded (fresh options world) := nofun

/-- The number of an identity comes from one that was taken on. -/
theorem node_run {identity : Identity} (events : List Event)
    (held : (s.run events).1.identity = some identity) :
    (∃ first, s.identity = some first ∧ first.node = identity.node) ∨
      ∃ before event after new, events = before ++ event :: after ∧
        (s.run before).1.taken? event = some new ∧ new.node = identity.node := by
  induction events generalizing s with
  | nil => exact .inl ⟨identity, held, rfl⟩
  | cons event rest ih =>
    rw [run_cons] at held
    obtain ⟨second, isSecond, node⟩ | ⟨before, next, after, new, split, took, node⟩ := ih held
    · cases passes_course (step_course s event) with
      | takes took holds =>
        obtain rfl := Option.some.inj (holds.symm.trans isSecond)
        exact .inr ⟨[], event, rest, _, rfl, took, node⟩
      | keeps took same => exact .inl ⟨second, same.symm.trans isSecond, node⟩
      | revokes took gone =>
        obtain ⟨first, isFirst, rfl⟩ := Option.map_eq_some_iff.mp (gone.symm.trans isSecond)
        exact .inl ⟨first, isFirst, node⟩
      | forgets took gone => exact nomatch gone.symm.trans isSecond
    · exact .inr ⟨event :: before, next, after, new, by rw [split]; rfl, took, node⟩

theorem accepts_of_adopted? {new : Identity} (adopted : s.adopted? event = some new) :
    0 ≤ new.node.toInt ∧ new.node.toInt < 1024 := by
  simp only [adopted?] at adopted
  split at adopted
  · obtain ⟨-, accepted⟩ := Option.filter_eq_some_iff.mp adopted
    by_cases within : 0 ≤ new.node.toInt ∧ new.node.toInt < 1024
    · exact within
    · simp [IdGenerator.accepts, IdGenerator.nodeNumber, dif_neg within, Except.toBool] at accepted
  · cases adopted

/-- In every state that a session comes to without its user reseeding the generator, ids are issued
under the number of the identity just when that is in the generator's range. A number that is not
was taken on by a loop that registered again. -/
theorem seed_eq_node_iff (options : KeepAliveOptions) (world : Surroundings) (events : List Event)
    (own : ∀ event ∈ events, event.reseeds = false) (identity : Identity)
    (held : ((fresh options world).run events).1.identity = some identity) :
    (((fresh options world).run events).1.ids.node.map (fun node => (node.val : Int)) =
        some identity.node.toInt ↔
      0 ≤ identity.node.toInt ∧ identity.node.toInt < 1024) ∧
    (¬ (0 ≤ identity.node.toInt ∧ identity.node.toInt < 1024) →
      ∃ before event after new, events = before ++ event :: after ∧
        ((fresh options world).run before).1.renewed? event = some new ∧
        new.node = identity.node) := by
  refine ⟨⟨?_, ?_⟩, ?_⟩
  · intro same
    obtain ⟨node, -, isNode⟩ := Option.map_eq_some_iff.mp same
    have bound := node.isLt
    omega
  · rintro ⟨nonneg, small⟩
    have seeded : Seeded ((fresh options world).run events).1 :=
      seeded_run (seeded_fresh options world) own
    -- The number in range, as the generator keeps it.
    let node : Fin 1024 := ⟨identity.node.toInt.toNat, by omega⟩
    have value : (node.val : Int) = identity.node.toInt := Int.toNat_of_nonneg nonneg
    rw [seeded identity node held (IdGenerator.nodeNumber_eq_ok_iff.mpr value), Option.map_some,
      value]
  · intro outside
    obtain ⟨first, isFirst, -⟩ | ⟨before, event, after, new, split, took, node⟩ :=
      node_run events held
    · cases isFirst
    · refine ⟨before, event, after, new, split, ?_, node⟩
      obtain renewed | ⟨-, adopted⟩ := Option.or_eq_some_iff.mp took
      · exact renewed
      · exact absurd (node ▸ accepts_of_adopted? adopted) outside

/-- The directory asks for a new registration and grants another number. -/
def renewedUnder (node : Int32) (secret : UInt64) : List Event :=
  firstHeartbeat ++ [.answer 1 (command .reconnect), .answer 2 (grant node secret)]

theorem seed_eq_node_iff_of_renewedUnder_8 :
    (∀ event ∈ renewedUnder 8 1008, event.reseeds = false) ∧
      ((fresh .standard stillWorld).run (renewedUnder 8 1008)).1.identity =
        some (granted 8 1008) ∧
      (((fresh .standard stillWorld).run (renewedUnder 8 1008)).1.ids.node.map
          (fun node => (node.val : Int)) = some (granted 8 1008).node.toInt ↔
        0 ≤ (granted 8 1008).node.toInt ∧ (granted 8 1008).node.toInt < 1024) := by
  have own : ∀ event ∈ renewedUnder 8 1008, event.reseeds = false := by decide
  have held : ((fresh .standard stillWorld).run (renewedUnder 8 1008)).1.identity =
      some (granted 8 1008) := by decide
  exact ⟨own, held, (seed_eq_node_iff _ _ _ own _ held).1⟩

/-- Between calls and rounds the node is number 1024, and issues ids under number seven. -/
theorem seed_of_renewedUnder_1024 :
    (∀ event ∈ renewedUnder 1024 2024, event.reseeds = false) ∧
      AtRest ((fresh .standard stillWorld).run (renewedUnder 1024 2024)).1 ∧
      ((fresh .standard stillWorld).run (renewedUnder 1024 2024)).1.node? = some 1024 ∧
      ((fresh .standard stillWorld).run (renewedUnder 1024 2024)).1.ids.node = some 7 := by
  decide

end Session

end ExchangeNode
