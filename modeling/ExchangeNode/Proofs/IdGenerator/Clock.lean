import Mathlib
import ExchangeNode.Proofs.IdGenerator.Layout

/-!
# How far a generator runs ahead of the wall clock

Each id takes the generator at least one place further, and at least to the start of the millisecond
that the wall clock reads. So after a run from the start, the place is told by the readings alone:
each reading puts the generator at the start of its millisecond, and each id after it one place
further. The generator's clock is then never behind a reading, and ahead of the latest one by no
more than a millisecond for every 4096 ids.

`place_of_readings` says so of every run, with what the last id embeds: the generator's clock, as
far as it fits 41 bits.
-/

namespace ExchangeNode.IdGenerator

/-- Whether a generator has just been made. -/
def IsFresh (g : IdGenerator) : Prop := g = unseeded ∨ ∃ n, seeded n = .ok g

theorem IsFresh.place {g : IdGenerator} (fresh : g.IsFresh) : g.place = 0 := by
  rcases fresh with rfl | ⟨n, made⟩
  · rfl
  · simp only [seeded] at made
    cases number : nodeNumber n with
    | error e => simp [number, Except.map] at made
    | ok node =>
      obtain rfl : _ = g := by simpa only [number, Except.map, Except.ok.injEq] using made
      simp [IdGenerator.place, placeOf, unseeded]

/-- What the wall clock reads when an action asks for an id. -/
def Action.reading? : Action → Option Nat
  | .generate clock => some (milliseconds clock)
  | .reseed _ | .clear => none

/-- The readings that led to ids, in the order of a run. -/
def readings (g : IdGenerator) : List Action → List Nat
  | [] => []
  | action :: rest =>
    let (g, issue) := g.act action
    (if issue.isSome then action.reading?.toList else []) ++ g.readings rest

/-- The furthest place that a reading leads to, with one more place for each reading after it. -/
def furthest (readings : List Nat) : Nat :=
  Finset.univ.sup fun i : Fin readings.length =>
    4096 * readings[i] + (readings.length - (i.val + 1))

/-! ### Readings and places -/

theorem furthest_le_iff {readings : List Nat} {place : Nat} :
    furthest readings ≤ place ↔ ∀ i, ∀ h : i < readings.length,
      4096 * readings[i] + (readings.length - (i + 1)) ≤ place := by
  simp [furthest, Finset.sup_le_iff, Fin.forall_iff]

theorem furthest_nil : furthest [] = 0 := rfl

theorem furthest_cons (t : Nat) (rest : List Nat) :
    furthest (t :: rest) = max (4096 * t + rest.length) (furthest rest) := by
  apply eq_of_forall_ge_iff
  intro place
  rw [max_le_iff, furthest_le_iff, furthest_le_iff]
  constructor
  · intro all
    refine ⟨all 0 (Nat.succ_pos _), fun i inside => ?_⟩
    have later := all (i + 1) (Nat.succ_lt_succ inside)
    simpa only [List.getElem_cons_succ, List.length_cons, Nat.add_sub_add_right] using later
  · rintro ⟨first, others⟩ i inside
    cases i with
    | zero => exact first
    | succ i =>
      have later := others i (Nat.lt_of_succ_lt_succ inside)
      simpa only [List.getElem_cons_succ, List.length_cons, Nat.add_sub_add_right] using later

/-- Where a run leads, from any place. -/
theorem place_run (g : IdGenerator) (actions : List Action) :
    (g.run actions).1.place =
        max (g.place + (g.readings actions).length) (furthest (g.readings actions)) ∧
      (g.run actions).2.length = (g.readings actions).length := by
  -- The place after the first action is where the rest of the run starts from.
  induction actions generalizing g with
  | nil => simp [run, readings, furthest_nil]
  | cons action rest ih =>
    obtain ⟨led, many⟩ := ih (g.act action).1
    rw [run_cons, readings]
    rcases act_cases g action with ⟨clock, node, rfl, acted⟩ | ⟨quiet, same, -⟩
    · simp only [acted] at led many ⊢
      simp only [Option.isSome_some, if_true, Action.reading?, Option.toList_some,
        List.singleton_append, List.length_cons, many, and_true]
      rw [led, place_advance_eq, furthest_cons]
      -- What is left is about places; how the reading came about does not matter.
      generalize milliseconds clock = t
      omega
    · simp only [quiet, Option.isSome_none, Bool.false_eq_true, if_false, List.nil_append,
        Option.toList_none]
      rw [same] at led
      exact ⟨led, many⟩

/-- The last id of a run embeds the generator's clock. -/
theorem shows_last (g : IdGenerator) (actions : List Action) :
    ((g.run actions).2 = [] ∧ (g.run actions).1.lastMs = g.lastMs) ∨
      ∃ issue, (g.run actions).2.getLast? = some issue ∧
        Shows issue.id issue.node (g.run actions).1.lastMs := by
  induction actions generalizing g with
  | nil => exact .inl ⟨rfl, rfl⟩
  | cons action rest ih =>
    rw [run_cons]
    -- The last id is among those of the rest, or there are none and it is that of this action.
    rcases ih (g.act action).1 with ⟨silent, stays⟩ | ⟨issue, last, shown⟩
    · simp only [silent, stays, List.append_nil]
      rcases act_cases g action with ⟨clock, node, -, acted⟩ | ⟨quiet, -, same⟩
      · right
        rw [acted]
        exact ⟨_, rfl, shows_pack _ _ _⟩
      · left
        rw [quiet]
        exact ⟨rfl, same⟩
    · right
      exact ⟨issue, by simp [List.getLast?_append, last], shown⟩

/-! ### Clock and readings -/

theorem reading_le {readings : List Nat} {t place : Nat} (seen : t ∈ readings)
    (furthest_le : furthest readings ≤ place) : 4096 * t ≤ place := by
  obtain ⟨i, inside, rfl⟩ := List.mem_iff_getElem.mp seen
  have reached := furthest_le_iff.mp furthest_le i inside
  omega

/-- What is furthest was reached from a reading, by no more ids than there were. -/
theorem exists_furthest_le {readings : List Nat} (nonempty : readings ≠ []) :
    ∃ t ∈ readings, furthest readings ≤ 4096 * t + readings.length := by
  induction readings with
  | nil => exact absurd rfl nonempty
  | cons t rest ih =>
    rw [furthest_cons, List.length_cons]
    by_cases later : furthest rest ≤ 4096 * t + rest.length
    · exact ⟨t, List.mem_cons_self, by omega⟩
    · have others : rest ≠ [] := by
        rintro rfl
        exact later (Nat.zero_le _)
      obtain ⟨t', seen, reached⟩ := ih others
      exact ⟨t', List.mem_cons_of_mem t seen, by omega⟩

/-- How a generator's clock and sequence stand to the readings they come from. -/
structure Keeps (ids : IdGenerator) (readings : List Nat) : Prop where
  place : ids.lastMs * 4096 + ids.sequence.val = max readings.length (furthest readings)
  notBehind : ∀ t ∈ readings, t ≤ ids.lastMs
  notAhead : ∃ t ∈ readings, ids.lastMs ≤ t + readings.length / 4096

theorem keeps_of_place {ids : IdGenerator} {readings : List Nat} (nonempty : readings ≠ [])
    (led : ids.place = max readings.length (furthest readings)) : ids.Keeps readings := by
  have small := ids.sequence.isLt
  simp only [IdGenerator.place, placeOf] at led
  constructor
  · exact led
  · intro t seen
    have reached := reading_le seen (Nat.le_max_right readings.length (furthest readings))
    omega
  · obtain ⟨t, seen, reached⟩ := exists_furthest_le nonempty
    exact ⟨t, seen, by omega⟩

/-- How the time that an id embeds stands to the readings that led to it. -/
structure Dates (time : Timestamp) (readings : List Nat) : Prop where
  notBehind : ∀ t ∈ readings, (idEpoch + t : Int) ≤ time.unixMillis
  notAhead : ∃ t ∈ readings, time.unixMillis ≤ (idEpoch + t : Int) + (readings.length / 4096 : Nat)

theorem Keeps.dates {ids : IdGenerator} {readings : List Nat} {time : Timestamp}
    (keeps : ids.Keeps readings)
    (embedded : time.unixMillis = (idEpoch + (ids.lastMs % 2 ^ 41 : Nat) : Int))
    (bound : ids.lastMs < 2 ^ 41) : Dates time readings := by
  rw [Nat.mod_eq_of_lt bound] at embedded
  constructor
  · intro t seen
    have reached := keeps.notBehind t seen
    omega
  · obtain ⟨t, seen, near⟩ := keeps.notAhead
    exact ⟨t, seen, by omega⟩

/-- In every run from the start that issues an id, there is an id for each reading, and the
generator's place is told by the readings, so that its clock is never behind one of them and ahead
of one by at most a millisecond for every 4096 ids. The last id embeds the generator's clock modulo
2^41: as long as the clock stays below, the time in the id is as near to the readings. -/
theorem clock_keeps_readings (g : IdGenerator) (fresh : g.IsFresh) (actions : List Action)
    (nonempty : g.readings actions ≠ []) :
    (g.run actions).2.length = (g.readings actions).length ∧
      (g.run actions).1.Keeps (g.readings actions) ∧
      ∃ issue time, (g.run actions).2.getLast? = some issue ∧
        timeOfId? issue.id = some time ∧
        time.unixMillis = (idEpoch + ((g.run actions).1.lastMs % 2 ^ 41 : Nat) : Int) ∧
        ((g.run actions).1.lastMs < 2 ^ 41 → Dates time (g.readings actions)) := by
  obtain ⟨led, many⟩ := place_run g actions
  rw [fresh.place, Nat.zero_add] at led
  have keeps := keeps_of_place nonempty led
  refine ⟨many, keeps, ?_⟩
  rcases shows_last g actions with ⟨silent, -⟩ | ⟨issue, last, shown⟩
  · rw [silent] at many
    exact absurd (List.length_eq_zero_iff.mp many.symm) nonempty
  · obtain ⟨time, isTime, embedded⟩ := Option.map_eq_some_iff.mp shown.time
    exact ⟨issue, time, last, isTime, embedded, keeps.dates embedded⟩

theorem coming_and_going_clock_keeps_readings :
    unseeded.IsFresh ∧ unseeded.readings comingAndGoing = [1, 0, 0, 0, 0] ∧
      (unseeded.run comingAndGoing).1.Keeps [1, 0, 0, 0, 0] ∧
      ∃ issue time, (unseeded.run comingAndGoing).2.getLast? = some issue ∧
        timeOfId? issue.id = some time ∧ Dates time [1, 0, 0, 0, 0] := by
  have seen : unseeded.readings comingAndGoing = [1, 0, 0, 0, 0] := by decide
  obtain ⟨-, keeps, issue, time, last, isTime, -, dates⟩ :=
    clock_keeps_readings unseeded (.inl rfl) comingAndGoing (by decide)
  rw [seen] at keeps dates
  exact ⟨.inl rfl, seen, keeps, issue, time, last, isTime, dates (by decide)⟩

/-- The wall clock stands where its milliseconds no longer fit an id. -/
def outOfBits : List Action := [.reseed 7, .generate (idEpoch + 2 ^ 41)]

theorem embedded_time_falls_behind :
    unseeded.IsFresh ∧ unseeded.readings outOfBits = [2 ^ 41] ∧
      ∃ issue time, (unseeded.run outOfBits).2.getLast? = some issue ∧
        timeOfId? issue.id = some time ∧ time.unixMillis < idEpoch + 2 ^ 41 ∧
        ¬ Dates time (unseeded.readings outOfBits) := by
  have seen : unseeded.readings outOfBits = [2 ^ 41] := by decide
  have issued : (unseeded.run outOfBits).2.getLast? = some ⟨7, 28672⟩ := by decide
  obtain ⟨time, isTime, embedded⟩ := exists_timeOfId? 28672
  have start : time.unixMillis = idEpoch := by
    rw [embedded]
    rfl
  refine ⟨.inl rfl, seen, ⟨7, 28672⟩, time, issued, isTime, by omega, fun dates => ?_⟩
  rw [seen] at dates
  have reached := dates.notBehind (2 ^ 41) List.mem_cons_self
  omega

end ExchangeNode.IdGenerator
