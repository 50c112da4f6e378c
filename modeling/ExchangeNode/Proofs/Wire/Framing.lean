import Mathlib.Data.List.Basic
import ExchangeNode.Proofs.Wire.Message

/-!
# Frames read back

The four bytes of a length give the length again, so a reader takes from a connection exactly the
frame that was put there, whatever follows it. Of a frame that has not come completely it takes
nothing: it reports that the bytes have ended too early, whether they end within the length or
within the body. So the cuts at which bytes arrive do not matter to it.
-/

namespace ExchangeNode

namespace Frame

/-- Each byte of a header makes up eight bits of the length. -/
theorem getLsbD_headerLength (a b c d : UInt8) (i : Nat) :
    (headerLength a b c d).toBitVec.getLsbD i =
      if i < 8 then d.toBitVec.getLsbD i else if i < 16 then c.toBitVec.getLsbD (i - 8)
      else if i < 24 then b.toBitVec.getLsbD (i - 16)
      else if i < 32 then a.toBitVec.getLsbD (i - 24) else false := by
  simp only [headerLength, UInt32.toBitVec_or, UInt32.toBitVec_shiftLeft, UInt8.toBitVec_toUInt32]
  simp only [UInt32.toBitVec_ofNat, BitVec.ofNat_eq_ofNat, BitVec.reduceMod, BitVec.toNat_ofNat,
    Nat.reducePow, Nat.reduceMod, BitVec.shiftLeft_eq', BitVec.getLsbD_or, BitVec.getLsbD_shiftLeft,
    BitVec.getLsbD_setWidth]
  grind

theorem getLsbD_byte (n : UInt32) {bits : UInt32} (within : bits < 32) (i : Nat) :
    (n >>> bits).toUInt8.toBitVec.getLsbD i =
      (decide (i < 8) && n.toBitVec.getLsbD (bits.toNat + i)) := by
  have modulus : bits.toNat % 32 = bits.toNat :=
    Nat.mod_eq_of_lt (UInt32.lt_iff_toNat_lt.mp within)
  simp [UInt32.toBitVec_toUInt8, UInt32.toBitVec_shiftRight, modulus]

theorem getLsbD_lastByte (n : UInt32) (i : Nat) :
    n.toUInt8.toBitVec.getLsbD i = (decide (i < 8) && n.toBitVec.getLsbD i) := by
  rw [UInt32.toBitVec_toUInt8, BitVec.getLsbD_setWidth]

theorem headerLength_header (n : UInt32) :
    headerLength (n >>> 24).toUInt8 (n >>> 16).toUInt8 (n >>> 8).toUInt8 n.toUInt8 = n := by
  apply UInt32.toBitVec_inj.mp
  apply BitVec.eq_of_getLsbD_eq
  intro i small
  rw [getLsbD_headerLength, getLsbD_byte n (by decide), getLsbD_byte n (by decide),
    getLsbD_byte n (by decide), getLsbD_lastByte]
  simp only [UInt32.reduceToNat]
  -- bit `i` stands in one of the four bytes and in no other
  grind

theorem header_headerLength (a b c d : UInt8) : header (headerLength a b c d) = [a, b, c, d] := by
  have eq_of_bits {x y : UInt8} (same : ∀ i < 8, x.toBitVec.getLsbD i = y.toBitVec.getLsbD i) :
      x = y :=
    UInt8.toBitVec_inj.mp (BitVec.eq_of_getLsbD_eq same)
  simp only [header, List.cons.injEq, and_true]
  refine ⟨eq_of_bits ?_, eq_of_bits ?_, eq_of_bits ?_, eq_of_bits ?_⟩
  iterate 3
    · intro i small
      rw [getLsbD_byte _ (by decide), getLsbD_headerLength]
      simp only [UInt32.reduceToNat]
      grind
  · intro i small
    rw [getLsbD_lastByte, getLsbD_headerLength]
    grind

/-- What a reader takes of a body depends on nothing but the length in its header. -/
theorem next_ofBody_eq (body rest : List UInt8) :
    next (ofBody body ++ rest) =
      if limit < UInt32.ofNat body.length then
        (.error (.tooLarge (UInt32.ofNat body.length) limit), body ++ rest)
      else
        (.ok ((body ++ rest).take (body.length % 2 ^ 32)),
          (body ++ rest).drop (body.length % 2 ^ 32)) := by
  have enough : ¬ (body ++ rest).length < body.length % 2 ^ 32 := by
    have := Nat.mod_le body.length (2 ^ 32)
    rw [List.length_append]
    omega
  simp only [next, ofBody, header, List.cons_append, List.nil_append, headerLength_header,
    UInt32.toNat_ofNat', if_neg enough]

section

variable {body : List UInt8} (fits : body.length ≤ limit.toNat)

include fits

theorem toNat_length : (UInt32.ofNat body.length).toNat = body.length :=
  UInt32.toNat_ofNat_of_lt' (Nat.lt_of_le_of_lt fits limit.toNat_lt)

theorem not_limit_lt : ¬ limit < UInt32.ofNat body.length := by
  rw [UInt32.lt_iff_toNat_lt, toNat_length fits]
  omega

theorem next_ofBody (rest : List UInt8) : next (ofBody body ++ rest) = (.ok body, rest) := by
  have small : body.length < 2 ^ 32 := Nat.lt_of_le_of_lt fits limit.toNat_lt
  rw [next_ofBody_eq, if_neg (not_limit_lt fits), Nat.mod_eq_of_lt small, List.take_left,
    List.drop_left]

/-- Of a frame some bytes are missing. If they begin within its length, that looks like an end
between two frames. -/
theorem next_take_eq {count : Nat} (incomplete : count < (ofBody body).length) :
    next ((ofBody body).take count) =
      (.error (if count < 4 then .connectionClosed else .io .unexpectedEnd), []) := by
  match count with
  | 0 | 1 | 2 | 3 => rfl
  | count + 4 =>
    simp only [ofBody, header, List.cons_append, List.nil_append, List.length_cons] at incomplete
    simp only [next, ofBody, header, List.cons_append, List.nil_append, List.take_succ_cons,
      headerLength_header, if_neg (not_limit_lt fits), toNat_length fits, List.length_take]
    rw [if_pos (by omega), if_neg (by omega)]

/-- A frame of which some bytes are missing. -/
theorem next_take {count : Nat} (incomplete : count < (ofBody body).length) :
    ∃ e, e.isShortage ∧ next ((ofBody body).take count) = (.error e, []) := by
  refine ⟨_, ?_, next_take_eq fits incomplete⟩
  split <;> rfl

end

end Frame

namespace Message

/-- A message whose frame a reader accepts. -/
def Fits (m : Message) : Prop := m.bytes.length ≤ Frame.limit.toNat

instance (m : Message) : Decidable m.Fits :=
  decidable_of_iff
    ((m.toJson.render.flatMap String.utf8EncodeChar).length ≤ Frame.limit.toNat)
    (by rw [Fits, bytes_eq])

theorem read_write_of_ofBytes? {m read : Message} (fits : m.Fits)
    (found : ofBytes? m.bytes = some read) (rest : List UInt8) :
    Message.read (m.write ++ rest) = (.ok read, rest) := by
  rw [Message.read, write, Frame.next_ofBody fits]
  simp only [found]

theorem read_write {m : Message} (rereads : m.Rereads) (fits : m.Fits) (rest : List UInt8) :
    read (m.write ++ rest) = (.ok m, rest) :=
  read_write_of_ofBytes? fits (ofBytes?_bytes rereads) rest

theorem read_take {m : Message} (fits : m.Fits) {count : Nat}
    (incomplete : count < m.write.length) :
    ∃ e, e.isShortage ∧ read (m.write.take count) = (.error e, []) := by
  obtain ⟨e, shortage, taken⟩ := Frame.next_take fits incomplete
  exact ⟨e, shortage, by rw [read, write, taken]⟩

theorem read_nil : read [] = (.error .connectionClosed, []) := rfl

theorem write_ne_nil (m : Message) : m.write ≠ [] := nofun

theorem rereads_of_response (id : UInt64) (r : Response) : Rereads ⟨id, .response r⟩ := nofun

theorem rereads_of_item (id : UInt64) (item : Item) : Rereads ⟨id, .item item⟩ := nofun

end Message

end ExchangeNode
