import Mathlib
import ExchangeNode.Proofs.IdGenerator.Order
import ExchangeNode.Proofs.Timestamp.Calendar

/-!
# The parts of an id

An id is written as one sum, and read by shifts and masks. However far the generator's clock has
gone, each part stays in its own bits: the time wraps at its 41 bits and reaches neither the top bit
nor the node number, so that ids of different node numbers never meet. Every 64-bit word has a time,
a node number and a sequence, and no other word has the same three.

`id_parts_kept_apart` says so of everything that a generator issues and of every word.
-/

namespace ExchangeNode

/-! ### What is written -/

namespace IdGenerator

theorem pack_mod (ms : Nat) (node : Fin 1024) (sequence : Fin 4096) :
    pack (ms % 2 ^ 41) node sequence = pack ms node sequence := by
  simp [pack]

theorem toNat_pack_wrapped (ms : Nat) (node : Fin 1024) (sequence : Fin 4096) :
    (pack ms node sequence).toNat = ms % 2 ^ 41 * 2 ^ 22 + node.val * 2 ^ 12 + sequence.val := by
  rw [← pack_mod]
  exact toNat_pack node sequence (Nat.mod_lt _ (by decide))

/-- A part that is as wide as `width` is moved to its place, and none of it is lost. -/
theorem toNat_shiftLeft_of_lt {word shift : UInt64} {part width place : Nat}
    (isPart : word.toNat = part) (isPlace : shift.toNat % 64 = place) (bound : part < 2 ^ width)
    (fits : width + place ≤ 64) : (word <<< shift).toNat = part * 2 ^ place := by
  have moved : part * 2 ^ place < 2 ^ 64 :=
    calc part * 2 ^ place
        < 2 ^ width * 2 ^ place := Nat.mul_lt_mul_of_pos_right bound (Nat.two_pow_pos place)
      _ = 2 ^ (width + place) := (Nat.pow_add 2 width place).symm
      _ ≤ 2 ^ 64 := Nat.pow_le_pow_right (by decide) fits
  rw [UInt64.toNat_shiftLeft, isPlace, isPart, Nat.shiftLeft_eq, Nat.mod_eq_of_lt moved]

/-- Low bits are set by adding them. -/
theorem or_eq_add {high low width : Nat} (bound : low < 2 ^ width) :
    high * 2 ^ width ||| low = high * 2 ^ width + low := by
  rw [Nat.mul_comm]
  exact (Nat.two_pow_add_eq_or_of_lt bound high).symm

/-- The parts are put together by masks and shifts. -/
theorem pack_eq_or (ms : Nat) (node : Fin 1024) (sequence : Fin 4096) :
    pack ms node sequence =
      (UInt64.ofNat ms &&& 0x1FFFFFFFFFF) <<< 22 ||| UInt64.ofNat node.val <<< 12 |||
        UInt64.ofNat sequence.val := by
  have smallTime : ms % 2 ^ 41 < 2 ^ 41 := Nat.mod_lt _ (by decide)
  have smallNode : node.val < 2 ^ 10 := node.isLt
  have smallSequence : sequence.val < 2 ^ 12 := sequence.isLt
  have few : node.val * 2 ^ 12 + sequence.val < 2 ^ 22 := by omega
  have time : (UInt64.ofNat ms &&& 0x1FFFFFFFFFF).toNat = ms % 2 ^ 41 := by
    have mask : (0x1FFFFFFFFFF : UInt64).toNat = 2 ^ 41 - 1 := rfl
    rw [UInt64.toNat_and, UInt64.toNat_ofNat', mask, Nat.and_two_pow_sub_one_eq_mod]
    exact Nat.mod_mod_of_dvd _ (by decide)
  have nodes : (UInt64.ofNat node.val).toNat = node.val :=
    UInt64.toNat_ofNat_of_lt' (Nat.lt_trans node.isLt (by decide))
  have high : ((UInt64.ofNat ms &&& 0x1FFFFFFFFFF) <<< 22).toNat = ms % 2 ^ 41 * 2 ^ 22 :=
    toNat_shiftLeft_of_lt time rfl smallTime (by decide)
  have middle : (UInt64.ofNat node.val <<< 12).toNat = node.val * 2 ^ 12 :=
    toNat_shiftLeft_of_lt nodes rfl smallNode (by decide)
  have low : (UInt64.ofNat sequence.val).toNat = sequence.val :=
    UInt64.toNat_ofNat_of_lt' (Nat.lt_trans sequence.isLt (by decide))
  apply UInt64.toNat_inj.mp
  calc (pack ms node sequence).toNat
      = ms % 2 ^ 41 * 2 ^ 22 + (node.val * 2 ^ 12 + sequence.val) := by
        rw [toNat_pack_wrapped, Nat.add_assoc]
    _ = ms % 2 ^ 41 * 2 ^ 22 ||| (node.val * 2 ^ 12 ||| sequence.val) := by
        rw [or_eq_add smallSequence, or_eq_add few]
    _ = _ := by
        rw [UInt64.toNat_or, UInt64.toNat_or, high, middle, low, Nat.or_assoc]

theorem exists_pack_of_generate {g ids : IdGenerator} {clock : Int} {id : UInt64}
    (issued : g.generate clock = .ok (id, ids)) :
    ∃ node, g.node = some node ∧ id = pack ids.lastMs node ids.sequence := by
  simp only [generate] at issued
  split at issued
  · cases issued
  next node seeded =>
    obtain ⟨rfl, rfl⟩ := Prod.mk.inj (Except.ok.inj issued)
    exact ⟨node, seeded, rfl⟩

/-- Under a node number there is always an id. -/
theorem generate_of_node {g : IdGenerator} {node : Fin 1024} (seeded : g.node = some node)
    (clock : Int) :
    ∃ ids : IdGenerator, g.generate clock = .ok (pack ids.lastMs node ids.sequence, ids) :=
  ⟨g.advance clock, by simp only [generate, seeded]⟩

end IdGenerator

/-! ### What is read -/

theorem nodeOfId_pack (ms : Nat) (node : Fin 1024) (sequence : Fin 4096) :
    nodeOfId (IdGenerator.pack ms node sequence) = node := by
  have smallNode := node.isLt
  have smallSequence := sequence.isLt
  simp only [nodeOfId, IdGenerator.toNat_pack_wrapped, Nat.shiftRight_eq_div_pow]
  omega

theorem topBit_pack (ms : Nat) (node : Fin 1024) (sequence : Fin 4096) :
    (IdGenerator.pack ms node sequence).toNat < 2 ^ 63 := by
  have smallNode := node.isLt
  have smallSequence := sequence.isLt
  rw [IdGenerator.toNat_pack_wrapped]
  omega

theorem milliseconds_pack (ms : Nat) (node : Fin 1024) (sequence : Fin 4096) :
    (IdGenerator.pack ms node sequence).toNat >>> 22 = ms % 2 ^ 41 := by
  have smallNode := node.isLt
  have smallSequence := sequence.isLt
  rw [IdGenerator.toNat_pack_wrapped, Nat.shiftRight_eq_div_pow]
  omega

theorem shiftRight_lt (id : UInt64) : id.toNat >>> 22 < 2 ^ 42 := by
  have small := id.toNat_lt
  rw [Nat.shiftRight_eq_div_pow]
  omega

/-- Every word has a time, and it is the one its upper bits count from the start of 2020. -/
theorem exists_timeOfId? (id : UInt64) :
    ∃ t, timeOfId? id = some t ∧ t.unixMillis = (id.toNat >>> 22 : Nat) + (idEpoch : Int) := by
  have small := shiftRight_lt id
  have epoch : idEpoch = 1577836800000 := rfl
  have late : (0 : Int) ≤ ((id.toNat >>> 22) + idEpoch : Nat) := by omega
  -- 2^42 milliseconds after the start of 2020 are still within the first 2^43 of Unix time.
  obtain ⟨t, isTime⟩ := Timestamp.exists_ofUnixMillis? late (by omega)
  refine ⟨t, isTime, ?_⟩
  rw [Timestamp.unixMillis_of_ofUnixMillis? isTime]
  push_cast
  rfl

/-- The sum of the time and the start of 2020 fits a word, and a signed one. -/
theorem toNat_shiftRight_add (id : UInt64) :
    ((id >>> 22) + UInt64.ofNat idEpoch).toNat = (id.toNat >>> 22) + idEpoch ∧
      (id.toNat >>> 22) + idEpoch < 2 ^ 63 := by
  have small := shiftRight_lt id
  have epoch : idEpoch = 1577836800000 := rfl
  have fits : (id.toNat >>> 22) + idEpoch < 2 ^ 63 := by omega
  have shift : (22 : UInt64).toNat % 64 = 22 := rfl
  refine ⟨?_, fits⟩
  rw [UInt64.toNat_add, UInt64.toNat_shiftRight, shift, UInt64.toNat_ofNat_of_lt' (by decide)]
  exact Nat.mod_eq_of_lt (Nat.lt_trans fits (by decide))

theorem eq_of_parts {a b : UInt64} (sameTime : timeOfId? a = timeOfId? b)
    (sameNode : nodeOfId a = nodeOfId b) (sameSequence : a.toNat % 4096 = b.toNat % 4096) :
    a = b := by
  obtain ⟨t, isTime, millis⟩ := exists_timeOfId? a
  obtain ⟨t', isTime', millis'⟩ := exists_timeOfId? b
  -- A time is a number of milliseconds, and so determines all bits above the lowest 22.
  have times : a.toNat >>> 22 = b.toNat >>> 22 := by
    rw [isTime, isTime'] at sameTime
    cases sameTime
    omega
  simp only [nodeOfId, Nat.shiftRight_eq_div_pow] at times sameNode
  apply UInt64.toNat_inj.mp
  omega

/-! ### Both -/

/-- Whether an id shows a node number and, modulo 2^41, a number of milliseconds, and leaves the top
bit clear. -/
structure Shows (id : UInt64) (node : Fin 1024) (ms : Nat) : Prop where
  node : nodeOfId id = node
  time : (timeOfId? id).map Timestamp.unixMillis = some (idEpoch + (ms % 2 ^ 41 : Nat) : Int)
  topBit : id.toNat < 2 ^ 63

theorem shows_pack (ms : Nat) (node : Fin 1024) (sequence : Fin 4096) :
    Shows (IdGenerator.pack ms node sequence) node ms := by
  constructor
  · exact nodeOfId_pack ms node sequence
  · obtain ⟨t, isTime, millis⟩ := exists_timeOfId? (IdGenerator.pack ms node sequence)
    rw [isTime, Option.map_some, millis, milliseconds_pack, Int.add_comm]
  · exact topBit_pack ms node sequence

theorem Shows.ne {a b : UInt64} {m n : Fin 1024} {ms ms' : Nat} (first : Shows a m ms)
    (second : Shows b n ms') (other : m ≠ n) : a ≠ b := by
  rintro rfl
  exact other (Fin.ext (first.node.symm.trans second.node))

/-- Under a node number a generator, wherever its clock is and whatever the wall clock says, issues
an id that shows this number and the generator's clock modulo 2^41, with the top bit clear. Ids of
different node numbers differ, whoever issues them and when. Every word has a time, which is found
without overflow, and no two words have the same time, node number and sequence. -/
theorem id_parts_kept_apart :
    (∀ (g : IdGenerator) (clock : Int) (node : Fin 1024), g.node = some node →
      ∃ id ids, g.generate clock = .ok (id, ids) ∧ Shows id node ids.lastMs) ∧
    (∀ (g g' ids ids' : IdGenerator) (clock clock' : Int) (id id' : UInt64),
      g.generate clock = .ok (id, ids) → g'.generate clock' = .ok (id', ids') →
        g.node ≠ g'.node → id ≠ id') ∧
    (∀ id : UInt64,
      (∃ t, timeOfId? id = some t ∧ t.unixMillis = (id.toNat >>> 22 : Nat) + (idEpoch : Int)) ∧
        ((id >>> 22) + UInt64.ofNat idEpoch).toNat = (id.toNat >>> 22) + idEpoch ∧
        (id.toNat >>> 22) + idEpoch < 2 ^ 63) ∧
    (∀ a b : UInt64, timeOfId? a = timeOfId? b → nodeOfId a = nodeOfId b →
      a.toNat % 4096 = b.toNat % 4096 → a = b) := by
  refine ⟨?_, ?_, fun id => ⟨exists_timeOfId? id, toNat_shiftRight_add id⟩, fun a b => eq_of_parts⟩
  · intro g clock node seeded
    obtain ⟨ids, issued⟩ := IdGenerator.generate_of_node seeded clock
    exact ⟨_, ids, issued, shows_pack _ _ _⟩
  · intro g g' ids ids' clock clock' id id' issued issued' other
    obtain ⟨node, seeded, rfl⟩ := IdGenerator.exists_pack_of_generate issued
    obtain ⟨node', seeded', rfl⟩ := IdGenerator.exists_pack_of_generate issued'
    rw [seeded, seeded'] at other
    exact (shows_pack _ _ _).ne (shows_pack _ _ _) (fun same => other (congrArg some same))

/-- A generator whose clock has left its 41 bits, at the end of its sequence. -/
def IdGenerator.wrapped : IdGenerator := ⟨some ⟨1023, by decide⟩, 2 ^ 41 + 5, ⟨4095, by decide⟩⟩

open IdGenerator in
theorem wrapped_id_parts_kept_apart :
    wrapped.node = some 1023 ∧ (wrapped.reseed 0).node = some 0 ∧
      ∃ id ids id' ids', wrapped.generate 0 = .ok (id, ids) ∧
        (wrapped.reseed 0).generate 0 = .ok (id', ids') ∧ ids.lastMs = 2 ^ 41 + 6 ∧
        Shows id 1023 ids.lastMs ∧ Shows id' 0 ids'.lastMs ∧ id ≠ id' := by
  obtain ⟨id, ids, issued, shown⟩ := id_parts_kept_apart.1 wrapped 0 1023 rfl
  obtain ⟨id', ids', issued', shown'⟩ := id_parts_kept_apart.1 (wrapped.reseed 0) 0 0 rfl
  have differ := id_parts_kept_apart.2.1 wrapped (wrapped.reseed 0) ids ids' 0 0 id id' issued
    issued' (by decide)
  refine ⟨rfl, rfl, id, ids, id', ids', issued, issued', ?_, shown, shown', differ⟩
  obtain ⟨-, rfl⟩ := Prod.mk.inj (Except.ok.inj issued)
  decide

end ExchangeNode
