import ExchangeNode.Proposals
import Mathlib.Data.List.Perm.Subperm

/-!
# The proposals that stand

From a list of what was done to the proposals one can say which of them stand: those that were
accepted and neither retired nor forgotten since. As long as every proposal has an id of its own, the
two lists in which proposals are kept agree with that, though retiring looks into one list after the
other and takes out only the first match.
-/

namespace ExchangeNode

/-- What is done to the proposals of a node. -/
inductive Deed where
  /-- A proposal has been accepted, and is tracked from now on. -/
  | accepted {side : Side} (advert : Advert side)
  | retired (id : UInt64)
  | forgotten
  deriving DecidableEq, Repr

namespace Deed

/-- The proposal of one side that is accepted, if there is one. -/
def adverts : (side : Side) → Deed → List (Advert side)
  | .supply, @accepted .supply advert => [advert]
  | .demand, @accepted .demand advert => [advert]
  | _, _ => []

/-- The id of the proposal that is accepted, if there is one. -/
def ids : Deed → List UInt64
  | accepted advert => [advert.id]
  | _ => []

/-- Whether a proposal with the id is no longer in flight after that. -/
def ends (id : UInt64) : Deed → Bool
  | accepted _ => false
  | retired other => other == id
  | forgotten => true

end Deed

/-- The proposals of one side that were accepted and that nothing has ended since, in order. -/
def standing (side : Side) : List Deed → List (Advert side)
  | [] => []
  | deed :: later =>
    (deed.adverts side).filter (fun advert => !later.any (Deed.ends advert.id)) ++
      standing side later

/-- The ids of all proposals that were ever accepted. -/
def acceptedIds (deeds : List Deed) : List UInt64 := deeds.flatMap Deed.ids

namespace Proposals

/-- The proposals after something has been done to them. -/
def after (p : Proposals) : Deed → Proposals
  | .accepted advert => p.track advert
  | .retired id => p.retire id
  | .forgotten => .empty

end Proposals

variable {side : Side} {id : UInt64} {deed : Deed} {deeds earlier later : List Deed}
  {p : Proposals}

/-! ### What stands -/

theorem standing_append (side : Side) (earlier later : List Deed) :
    standing side (earlier ++ later) =
      (standing side earlier).filter (fun advert => !later.any (Deed.ends advert.id)) ++
        standing side later := by
  induction earlier with
  | nil => rfl
  | cons deed rest ih =>
    simp only [List.cons_append, standing, ih, List.filter_append, List.filter_filter,
      List.append_assoc, List.any_append, Bool.not_or, Bool.and_comm]

theorem standing_concat (side : Side) (deeds : List Deed) (deed : Deed) :
    standing side (deeds ++ [deed]) =
      (standing side deeds).filter (fun advert => !deed.ends advert.id) ++ deed.adverts side := by
  simp [standing_append, standing]

theorem acceptedIds_append (earlier later : List Deed) :
    acceptedIds (earlier ++ later) = acceptedIds earlier ++ acceptedIds later :=
  List.flatMap_append

/-- What an accepted proposal adds to the ids, it adds to one of the sides. -/
theorem ids_eq (deed : Deed) :
    deed.ids = (deed.adverts .supply).map (·.id) ++ (deed.adverts .demand).map (·.id) := by
  cases deed with
  | @accepted side advert =>
    cases side with
    | supply | demand => rfl
  | retired | forgotten => rfl

theorem mem_ids_of_adverts {advert : Advert side} (accepts : advert ∈ deed.adverts side) :
    advert.id ∈ deed.ids := by
  rw [ids_eq, List.mem_append]
  cases side with
  | supply => exact .inl (List.mem_map_of_mem accepts)
  | demand => exact .inr (List.mem_map_of_mem accepts)

theorem mem_acceptedIds_of_standing {advert : Advert side} (stands : advert ∈ standing side deeds) :
    advert.id ∈ acceptedIds deeds := by
  induction deeds with
  | nil => cases stands
  | cons deed later ih =>
    rw [standing, List.mem_append] at stands
    rw [acceptedIds, List.flatMap_cons, List.mem_append]
    rcases stands with first | stands
    · exact .inl (mem_ids_of_adverts (List.mem_filter.mp first).1)
    · exact .inr (ih stands)

/-- The proposals that stand on the two sides are among those that were accepted. -/
theorem standing_subperm (deeds : List Deed) :
    ((standing .supply deeds).map (·.id) ++ (standing .demand deeds).map (·.id)).Subperm
      (acceptedIds deeds) := by
  induction deeds with
  | nil => exact List.Subperm.refl []
  | cons deed later ih =>
    have kept (side : Side) (still : Advert side → Bool) :
        (((deed.adverts side).filter still).map (·.id)).Sublist ((deed.adverts side).map (·.id)) :=
      List.filter_sublist.map _
    have first := (kept .supply fun advert => !later.any (Deed.ends advert.id)).append
      (kept .demand fun advert => !later.any (Deed.ends advert.id))
    rw [← ids_eq] at first
    have both := first.subperm.append ih
    simp only [standing, List.map_append]
    -- What is accepted first stands first on its side, not before the other side.
    refine List.Perm.subperm_right ?_ |>.mp both
    simp only [List.append_assoc]
    exact (List.perm_append_left_iff _).mpr (List.perm_append_comm_assoc _ _ _)

/-- Where no id was accepted twice, the proposals that stand have ids of their own, also across the
two sides. -/
theorem nodup_standing (distinct : (acceptedIds deeds).Nodup) :
    ((standing .supply deeds).map (·.id) ++ (standing .demand deeds).map (·.id)).Nodup := by
  obtain ⟨ids, same, among⟩ := standing_subperm deeds
  exact same.nodup_iff.mp (distinct.sublist among)

/-! ### What is tracked -/

theorem eraseP_eq_filter {adverts : List (Advert side)}
    (distinct : (adverts.map (·.id)).Nodup) (id : UInt64) :
    adverts.eraseP (·.id == id) = adverts.filter (fun advert => !(id == advert.id)) := by
  induction adverts with
  | nil => rfl
  | cons advert rest ih =>
    obtain ⟨other, tail⟩ := List.nodup_cons.mp distinct
    by_cases same : advert.id = id
    · have others : ∀ later ∈ rest, (!(id == later.id)) = true := by
        rintro later member
        simp only [Bool.not_eq_true', beq_eq_false_iff_ne]
        rintro rfl
        exact other (List.mem_map.mpr ⟨later, member, same.symm⟩)
      simp [same, List.filter_eq_self.mpr others]
    · simp [same, Ne.symm same, ih tail]

/-- Retiring leaves all others, on both sides. -/
theorem retire_eq_filter
    (distinct : (p.supplies.map (·.id) ++ p.demands.map (·.id)).Nodup) (id : UInt64) :
    (p.retire id).supplies = p.supplies.filter (fun advert => !(id == advert.id)) ∧
      (p.retire id).demands = p.demands.filter (fun advert => !(id == advert.id)) := by
  obtain ⟨supplies, demands, apart⟩ := List.nodup_append.mp distinct
  simp only [Proposals.retire]
  split
  next found =>
    obtain ⟨supply, member, same⟩ := List.any_eq_true.mp found
    have others : ∀ demand ∈ p.demands, (!(id == demand.id)) = true := by
      intro demand isDemand
      have different := apart _ (List.mem_map_of_mem member) _ (List.mem_map_of_mem isDemand)
      rw [beq_iff_eq] at same
      simpa [same] using different
    exact ⟨eraseP_eq_filter supplies id, (List.filter_eq_self.mpr others).symm⟩
  -- Only where no supply has the id are the demands looked through.
  next missing =>
    have others : ∀ supply ∈ p.supplies, (!(id == supply.id)) = true := by
      intro supply isSupply
      simp only [List.any_eq_true, beq_iff_eq, not_exists, not_and] at missing
      simpa using Ne.symm (missing supply isSupply)
    exact ⟨(List.filter_eq_self.mpr others).symm, eraseP_eq_filter demands id⟩

/-- The proposals that are tracked are those that stand. -/
structure Faithful (p : Proposals) (deeds : List Deed) : Prop where
  supplies : p.supplies = standing .supply deeds
  demands : p.demands = standing .demand deeds

theorem Faithful.after (faithful : Faithful p deeds) (distinct : (acceptedIds deeds).Nodup)
    (deed : Deed) : Faithful (p.after deed) (deeds ++ [deed]) := by
  cases deed with
  -- An acceptance ends nothing, and adds to one side.
  | @accepted side advert =>
    have kept (other : Side) : (standing other deeds).filter
        (fun stands => !(Deed.accepted advert).ends stands.id) = standing other deeds :=
      List.filter_eq_self.mpr fun _ _ => rfl
    cases side with
    | supply | demand =>
      constructor
      · rw [standing_concat, kept, ← faithful.supplies]
        simp [Proposals.after, Proposals.track, Deed.adverts]
      · rw [standing_concat, kept, ← faithful.demands]
        simp [Proposals.after, Proposals.track, Deed.adverts]
  | retired id =>
    have own := nodup_standing distinct
    rw [← faithful.supplies, ← faithful.demands] at own
    obtain ⟨supplies, demands⟩ := retire_eq_filter own id
    constructor
    · rw [standing_concat, ← faithful.supplies]
      simpa [Proposals.after, Deed.adverts, Deed.ends] using supplies
    · rw [standing_concat, ← faithful.demands]
      simpa [Proposals.after, Deed.adverts, Deed.ends] using demands
  | forgotten =>
    have gone (side : Side) : standing side (deeds ++ [.forgotten]) = [] := by
      rw [standing_concat]
      simp [Deed.adverts, Deed.ends]
    exact ⟨(gone .supply).symm, (gone .demand).symm⟩

theorem Faithful.pending_eq (faithful : Faithful p deeds) :
    p.pending = ((standing .supply deeds).length, (standing .demand deeds).length) := by
  rw [Proposals.pending, faithful.supplies, faithful.demands]

theorem Faithful.isSafe_iff (faithful : Faithful p deeds) :
    p.isSafe ↔ standing .supply deeds = [] ∧ standing .demand deeds = [] := by
  rw [Proposals.isSafe, faithful.supplies, faithful.demands, Bool.and_eq_true, List.isEmpty_iff,
    List.isEmpty_iff]

theorem Faithful.mem_acceptedIds (faithful : Faithful p deeds) (tracked : p.tracks id) :
    id ∈ acceptedIds deeds := by
  rw [Proposals.tracks, faithful.supplies, faithful.demands, Bool.or_eq_true, List.any_eq_true,
    List.any_eq_true] at tracked
  rcases tracked with ⟨advert, stands, same⟩ | ⟨advert, stands, same⟩
  · exact beq_iff_eq.mp same ▸ mem_acceptedIds_of_standing stands
  · exact beq_iff_eq.mp same ▸ mem_acceptedIds_of_standing stands

/-- A proposal that was retired does not stand again. -/
theorem not_tracks_of_retired (distinct : (acceptedIds (earlier ++ .retired id :: later)).Nodup)
    (stood : id ∈ acceptedIds earlier)
    (faithful : Faithful p (earlier ++ .retired id :: later)) : p.tracks id = false := by
  -- It has gone from among the earlier ones, and none of the later ones has its id.
  have gone (side : Side) : ∀ advert ∈ standing side (earlier ++ .retired id :: later),
      (advert.id == id) = false := by
    intro advert stands
    rw [standing_append, List.mem_append] at stands
    rcases stands with before | after
    · have lasts := (List.mem_filter.mp before).2
      simp only [List.any_cons, Deed.ends, Bool.not_or, Bool.and_eq_true, Bool.not_eq_true'] at lasts
      exact beq_false_of_ne fun same => by simp [same] at lasts
    · have accepted := mem_acceptedIds_of_standing after
      rw [acceptedIds_append, List.nodup_append] at distinct
      exact beq_false_of_ne fun same => distinct.2.2 id stood _ accepted same.symm
  rw [Proposals.tracks, faithful.supplies, faithful.demands, Bool.or_eq_false_iff]
  simp only [List.any_eq_false, Bool.not_eq_true]
  exact ⟨gone .supply, gone .demand⟩

end ExchangeNode
