import Mathlib
import ExchangeNode.IdGenerator

/-!
# Ids in the order of their issue

A generator's clock and sequence, read as one number, are its place. Each id takes the generator to
a later place, and nothing takes it back: a new node number or none leaves it where it is. An id
tells the place it was issued at, as long as the clock fits into it, so that no id is issued twice,
and under one node number the ids grow.

`run_ids_distinct_and_increasing` says this of every sequence of actions.
-/

namespace ExchangeNode.IdGenerator

/-- What may be done to a generator. -/
inductive Action where
  | generate (clock : Int)
  | reseed (n : Int)
  | clear
  deriving DecidableEq, Repr

/-- An id and the node number it was issued under. -/
structure Issue where
  node : Fin 1024
  id : UInt64
  deriving DecidableEq, Repr

/-- The generator after an action, and the id that was issued. -/
def act (g : IdGenerator) : Action → IdGenerator × Option Issue
  | .generate clock =>
    match g.node, g.generate clock with
    | some node, .ok (id, g) => (g, some ⟨node, id⟩)
    | _, _ => (g, none)
  | .reseed n => (g.reseed n, none)
  | .clear => (g.clear, none)

/-- The generator after a sequence of actions, and all ids in the order of their issue. -/
def run (g : IdGenerator) : List Action → IdGenerator × List Issue
  | [] => (g, [])
  | action :: rest =>
    let (g, issue) := g.act action
    let (g, issues) := g.run rest
    (g, issue.toList ++ issues)

theorem run_cons (g : IdGenerator) (action : Action) (rest : List Action) :
    g.run (action :: rest) =
      (((g.act action).1.run rest).1,
        (g.act action).2.toList ++ ((g.act action).1.run rest).2) := rfl

/-! ### Places -/

/-- A clock and a sequence read as one number. -/
def placeOf (ms : Nat) (sequence : Fin 4096) : Nat := ms * 4096 + sequence.val

/-- How far a generator has come. -/
def place (g : IdGenerator) : Nat := placeOf g.lastMs g.sequence

/-- An id takes a generator one place further, or to the start of the millisecond that is read. -/
theorem place_advance_eq (g : IdGenerator) (clock : Int) :
    (g.advance clock).place = max (g.place + 1) (4096 * milliseconds clock) := by
  have small := g.sequence.isLt
  simp only [place, placeOf, advance]
  split
  -- The clock has moved on.
  · simp only [Fin.val_zero]
    omega
  · split
    · simp only
      omega
    -- The sequence is used up, and the next millisecond is borrowed.
    · simp only [Fin.val_zero]
      omega

theorem place_advance (g : IdGenerator) (clock : Int) : g.place < (g.advance clock).place := by
  rw [place_advance_eq]
  omega

theorem lastMs_advance (g : IdGenerator) (clock : Int) : g.lastMs ≤ (g.advance clock).lastMs := by
  have later := place_advance g clock
  have small := (g.advance clock).sequence.isLt
  simp only [place, placeOf] at later
  omega

/-- An action issues an id at a later place, or leaves the generator where it is. -/
theorem act_cases (g : IdGenerator) (action : Action) :
    (∃ clock node, action = .generate clock ∧ g.act action =
        (g.advance clock,
          some ⟨node, pack (g.advance clock).lastMs node (g.advance clock).sequence⟩)) ∨
      ((g.act action).2 = none ∧ (g.act action).1.place = g.place ∧
        (g.act action).1.lastMs = g.lastMs) := by
  cases action with
  | generate clock =>
    cases seeded : g.node with
    | none =>
      right
      simp [act, generate, seeded]
    | some node =>
      left
      exact ⟨clock, node, rfl, by simp [act, generate, seeded]⟩
  | reseed n =>
    right
    simp only [act, reseed]
    split <;> simp [place]
  | clear =>
    right
    simp [act, clear, place]

theorem lastMs_run (g : IdGenerator) (actions : List Action) :
    g.lastMs ≤ (g.run actions).1.lastMs := by
  induction actions generalizing g with
  | nil => exact Nat.le_refl _
  | cons action rest ih =>
    simp only [run_cons]
    have later := ih (g.act action).1
    rcases act_cases g action with ⟨clock, node, -, acted⟩ | ⟨-, -, same⟩
    · simp only [acted] at later ⊢
      exact Nat.le_trans (lastMs_advance g clock) later
    · rwa [same] at later

/-! ### Ids and places -/

theorem toNat_pack {ms : Nat} (node : Fin 1024) (sequence : Fin 4096) (bound : ms < 2 ^ 41) :
    (pack ms node sequence).toNat = ms * 2 ^ 22 + node.val * 2 ^ 12 + sequence.val := by
  have smallNode := node.isLt
  have smallSequence := sequence.isLt
  simp only [pack, Nat.shiftLeft_eq, Nat.one_mul]
  rw [Nat.mod_eq_of_lt bound, UInt64.toNat_ofNat_of_lt']
  rw [UInt64.size]
  omega

/-- Whether an id was issued at a place, and before its clock has run out of bits. -/
def Issue.IsAt (issue : Issue) (place : Nat) : Prop :=
  ∃ ms sequence, ms < 2 ^ 41 ∧ issue.id = pack ms issue.node sequence ∧
    place = placeOf ms sequence

theorem isAt_place (g : IdGenerator) (node : Fin 1024) (bound : g.lastMs < 2 ^ 41) :
    Issue.IsAt ⟨node, pack g.lastMs node g.sequence⟩ g.place :=
  ⟨g.lastMs, g.sequence, bound, rfl, rfl⟩

theorem Issue.IsAt.ne_zero {issue : Issue} {place : Nat} (issued : issue.IsAt place)
    (moved : 0 < place) : issue.id ≠ 0 := by
  obtain ⟨ms, sequence, bound, packed, rfl⟩ := issued
  intro zero
  have parts := toNat_pack issue.node sequence bound
  rw [← packed, zero, UInt64.toNat_zero] at parts
  simp only [placeOf] at moved
  omega

theorem Issue.IsAt.ne {a b : Issue} {p q : Nat} (first : a.IsAt p) (second : b.IsAt q)
    (later : p < q) : a.id ≠ b.id := by
  obtain ⟨ms, sequence, bound, packed, rfl⟩ := first
  obtain ⟨ms', sequence', bound', packed', rfl⟩ := second
  intro same
  have parts := toNat_pack a.node sequence bound
  have parts' := toNat_pack b.node sequence' bound'
  rw [← packed, same, packed', parts'] at parts
  have nodes := And.intro a.node.isLt b.node.isLt
  have sequences := And.intro sequence.isLt sequence'.isLt
  simp only [placeOf] at later
  omega

theorem Issue.IsAt.lt {a b : Issue} {p q : Nat} (first : a.IsAt p) (second : b.IsAt q)
    (later : p < q) (sameNode : a.node = b.node) : a.id < b.id := by
  obtain ⟨ms, sequence, bound, packed, rfl⟩ := first
  obtain ⟨ms', sequence', bound', packed', rfl⟩ := second
  simp only [UInt64.lt_iff_toNat_lt, packed, packed', toNat_pack _ _ bound,
    toNat_pack _ _ bound', sameNode]
  have small := sequence.isLt
  simp only [placeOf] at later
  grind

/-! ### Runs -/

/-- All ids of a run are issued beyond the place it starts from. -/
theorem run_issues_later (g : IdGenerator) (actions : List Action)
    (bound : (g.run actions).1.lastMs < 2 ^ 41) :
    ∀ issue ∈ (g.run actions).2, ∃ place, issue.IsAt place ∧ g.place < place := by
  induction actions generalizing g with
  | nil => simp [run]
  | cons action rest ih =>
    simp only [run_cons] at bound ⊢
    intro issue member
    have restLater := ih (g.act action).1 bound
    have kept := lastMs_run (g.act action).1 rest
    rcases act_cases g action with ⟨clock, node, -, acted⟩ | ⟨quiet, same, -⟩
    · simp only [acted] at member restLater kept bound
      -- The bound holds at the end of the run, and with it here.
      have later := place_advance g clock
      rcases List.mem_append.mp member with now | after
      · obtain rfl : issue = _ := by simpa using now
        have inside : (g.advance clock).lastMs < 2 ^ 41 := by omega
        exact ⟨_, isAt_place _ node inside, later⟩
      · obtain ⟨place, issued, beyond⟩ := restLater issue after
        exact ⟨place, issued, Nat.lt_trans later beyond⟩
    · rw [quiet] at member
      obtain ⟨place, issued, beyond⟩ := restLater issue (by simpa using member)
      exact ⟨place, issued, same ▸ beyond⟩

/-- Of two ids of a run the later one is issued at a later place. -/
theorem run_issues_ordered (g : IdGenerator) (actions : List Action)
    (bound : (g.run actions).1.lastMs < 2 ^ 41) :
    (g.run actions).2.Pairwise fun a b => ∃ p q, a.IsAt p ∧ b.IsAt q ∧ p < q := by
  induction actions generalizing g with
  | nil => exact List.Pairwise.nil
  | cons action rest ih =>
    simp only [run_cons] at bound ⊢
    have ordered := ih (g.act action).1 bound
    rcases act_cases g action with ⟨clock, node, -, acted⟩ | ⟨quiet, -, -⟩
    · simp only [acted] at ordered bound ⊢
      refine List.pairwise_cons.mpr ⟨fun issue member => ?_, ordered⟩
      obtain ⟨place, issued, beyond⟩ := run_issues_later (g.advance clock) rest bound issue member
      have kept := lastMs_run (g.advance clock) rest
      have inside : (g.advance clock).lastMs < 2 ^ 41 := by omega
      exact ⟨_, place, isAt_place _ node inside, issued, beyond⟩
    · rw [quiet]
      exact ordered

/-- Whatever is done to a generator, while its clock stays below 2^41 milliseconds all ids differ,
none is zero, and of two ids under the same node number the later one is larger. The clock of a
generator never goes back, so it is enough to bound it at the end. -/
theorem run_ids_distinct_and_increasing (g : IdGenerator) (actions : List Action)
    (bound : (g.run actions).1.lastMs < 2 ^ 41) :
    ((g.run actions).2.map Issue.id).Nodup ∧
      (∀ issue ∈ (g.run actions).2, issue.id ≠ 0) ∧
      (g.run actions).2.Pairwise fun a b => a.node = b.node → a.id < b.id := by
  have ordered := run_issues_ordered g actions bound
  refine ⟨List.pairwise_map.mpr (ordered.imp ?_), ?_, ordered.imp ?_⟩
  · rintro a b ⟨p, q, first, second, later⟩
    exact first.ne second later
  · intro issue member
    obtain ⟨place, issued, beyond⟩ := run_issues_later g actions bound issue member
    exact issued.ne_zero (Nat.zero_lt_of_lt beyond)
  · rintro a b ⟨p, q, first, second, later⟩
    exact first.lt second later

/-- Node numbers come and go, also a wrong one, while the wall clock stands in the past. -/
def comingAndGoing : List Action :=
  [.reseed 3, .generate (idEpoch + 1), .generate 0, .reseed (-1), .generate 0, .reseed 5,
    .generate 0, .clear, .generate (idEpoch + 9), .reseed 3, .generate 0]

/-- Of six ids that are asked for only the one without a number is refused. -/
theorem coming_and_going_ids_distinct_and_increasing :
    (unseeded.run comingAndGoing).1.lastMs < 2 ^ 41 ∧
      (unseeded.run comingAndGoing).2.length = 5 ∧
      ((unseeded.run comingAndGoing).2.map Issue.id).Nodup ∧
      (∀ issue ∈ (unseeded.run comingAndGoing).2, issue.id ≠ 0) ∧
      (unseeded.run comingAndGoing).2.Pairwise fun a b => a.node = b.node → a.id < b.id :=
  ⟨by decide, by decide, run_ids_distinct_and_increasing unseeded comingAndGoing (by decide)⟩

end ExchangeNode.IdGenerator
