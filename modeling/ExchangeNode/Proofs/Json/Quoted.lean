import Mathlib.Data.List.Basic
import ExchangeNode.Json.Printer
import ExchangeNode.Json.Reader

/-!
# Texts read back

The reader takes bytes, the printer writes characters. `feed` hands the reader one character after
the other, so what is shown of a text is shown along its characters: each is read back from its
escape, and the whole from its quote.
-/

namespace ExchangeNode

/-! ### Characters as bytes -/

theorem loop_toList_eq (bytes : ByteArray) (i : Nat) (before : List UInt8) :
    ByteArray.toList.loop bytes i before = before.reverse ++ bytes.data.toList.drop i := by
  fun_induction ByteArray.toList.loop bytes i before with
  | case1 i before inside ih =>
    have bound : i < bytes.data.toList.length := inside
    rw [ih, List.drop_eq_getElem_cons bound]
    simp [ByteArray.get!, getElem!_pos, inside]
  | case2 i before outside =>
    have bound : bytes.data.toList.length ≤ i := Nat.not_lt.mp outside
    rw [List.drop_eq_nil_of_le bound, List.append_nil]

theorem toList_toUTF8 (cs : List Char) :
    (String.ofList cs).toUTF8.toList = cs.flatMap String.utf8EncodeChar := by
  rw [ByteArray.toList, loop_toList_eq, String.toUTF8_eq_toByteArray, String.toByteArray_ofList]
  simp [List.utf8Encode]

theorem fromUTF8?_utf8 (s : String) :
    String.fromUTF8? (s.toList.flatMap String.utf8EncodeChar).toByteArray = some s := by
  have same : (s.toList.flatMap String.utf8EncodeChar).toByteArray = s.toByteArray :=
    String.utf8Encode_toList
  rw [same, String.fromUTF8?, dif_pos s.isValidUTF8]
  rfl

namespace Json

theorem toNat_byte {n : Nat} (small : n < 256) : (UInt8.ofNat n).toNat = n :=
  UInt8.toNat_ofNat_of_lt' small

theorem utf8EncodeChar_of_ascii {c : Char} (ascii : c.toNat < 128) :
    String.utf8EncodeChar c = [UInt8.ofNat c.toNat] := by
  have small : c.val.toNat ≤ 127 := Nat.le_of_lt_succ ascii
  simp only [String.utf8EncodeChar, if_pos small]
  rfl

theorem asChar_of_ascii {c : Char} (ascii : c.toNat < 128) : asChar (UInt8.ofNat c.toNat) = c := by
  rw [asChar, toNat_byte (by omega), Char.ofNat_toNat]

theorem toNat_asChar (b : UInt8) : (asChar b).toNat = b.toNat := by
  have bound : b.toNat < 256 := b.toNat_lt
  rw [asChar, Char.ofNat, dif_pos (.inl (by omega))]
  rfl

/-- A byte that stands for itself in a text. -/
def isPlain (b : UInt8) : Prop := asChar b ≠ '"' ∧ asChar b ≠ '\\' ∧ ¬ b < 32

theorem isPlain_of_large {b : UInt8} (large : 128 ≤ b.toNat) : isPlain b := by
  have back : (asChar b).toNat = b.toNat := toNat_asChar b
  refine ⟨fun same => ?_, fun same => ?_, fun low => ?_⟩
  · rw [same] at back
    exact absurd large (by rw [← back]; decide)
  · rw [same] at back
    exact absurd large (by rw [← back]; decide)
  · have : b.toNat < 32 := low
    omega

/-- A character that is not escaped consists of bytes that stand for themselves. -/
theorem isPlain_of_mem_utf8 {c : Char} (noQuote : c ≠ '"') (noSlash : c ≠ '\\')
    (visible : 32 ≤ c.toNat) : ∀ b ∈ String.utf8EncodeChar c, isPlain b := by
  by_cases ascii : c.toNat < 128
  · rw [utf8EncodeChar_of_ascii ascii]
    intro b member
    obtain rfl := List.mem_singleton.mp member
    rw [isPlain, asChar_of_ascii ascii]
    refine ⟨noQuote, noSlash, fun low => ?_⟩
    have small : (UInt8.ofNat c.toNat).toNat < 32 := low
    rw [toNat_byte (by omega)] at small
    omega
  -- All bytes of a longer character are beyond those that mean something to the reader.
  · have big : ¬ c.val.toNat ≤ 127 := fun small => ascii (Nat.lt_succ_of_le small)
    intro b member
    apply isPlain_of_large
    simp only [String.utf8EncodeChar, if_neg big] at member
    split at member
    · simp only [List.mem_cons, List.not_mem_nil, or_false] at member
      rcases member with rfl | rfl <;> rw [toNat_byte (by omega)] <;> omega
    · split at member
      · simp only [List.mem_cons, List.not_mem_nil, or_false] at member
        rcases member with rfl | rfl | rfl <;> rw [toNat_byte (by omega)] <;> omega
      · simp only [List.mem_cons, List.not_mem_nil, or_false] at member
        rcases member with rfl | rfl | rfl | rfl <;>
          rw [toNat_byte (by omega)] <;> omega

namespace Reader

/-! ### Reading characters -/

theorem run_append (r : Reader) (first more : List UInt8) :
    r.run (first ++ more) = (r.run first).bind fun r => r.run more := by
  induction first generalizing r with
  | nil => rfl
  | cons b rest ih =>
    simp only [List.cons_append, run]
    cases r.step b with
    | none => rfl
    | some r => exact ih r

/-- The reader after a sequence of characters. -/
def feed (r : Reader) (cs : List Char) : Option Reader := r.run (cs.flatMap String.utf8EncodeChar)

@[simp] theorem feed_nil (r : Reader) : r.feed [] = some r := rfl

theorem feed_append (r : Reader) (cs more : List Char) :
    r.feed (cs ++ more) = (r.feed cs).bind fun r => r.feed more := by
  rw [feed, List.flatMap_append, run_append]
  rfl

/-- A character of one byte. -/
theorem feed_cons (r : Reader) {c : Char} (ascii : c.toNat < 128) (cs : List Char) :
    r.feed (c :: cs) = (r.step (UInt8.ofNat c.toNat)).bind fun r => r.feed cs := by
  rw [feed, List.flatMap_cons, utf8EncodeChar_of_ascii ascii]
  rfl

theorem feed_singleton (r : Reader) {c : Char} (ascii : c.toNat < 128) :
    r.feed [c] = r.step (UInt8.ofNat c.toNat) := by
  rw [feed_cons r ascii]
  exact Option.bind_fun_some _

/-! ### The characters of a text -/

variable {containers : List Container} {isKey : Bool}

theorem run_plain (before : List UInt8) (bytes : List UInt8) (plain : ∀ b ∈ bytes, isPlain b) :
    run ⟨containers, .text isKey ⟨before, none, true⟩⟩ bytes =
      some ⟨containers, .text isKey ⟨bytes.reverse ++ before, none, true⟩⟩ := by
  induction bytes generalizing before with
  | nil => rfl
  | cons b rest ih =>
    obtain ⟨⟨noQuote, noSlash, visible⟩, others⟩ := List.forall_mem_cons.mp plain
    have turn : step ⟨containers, .text isKey ⟨before, none, true⟩⟩ b =
        some ⟨containers, .text isKey ⟨b :: before, none, true⟩⟩ := by
      simp only [step, if_neg noQuote, if_neg noSlash, if_neg visible]
      rfl
    rw [run, turn, Option.bind_some, ih (b :: before) others]
    simp

theorem hexValue?_hexDigit (n : Nat) : hexValue? (hexDigit n) = some (n % 16) := by
  have all : ∀ k < 16, hexValue? (Nat.digitChar k) = some k := by decide
  exact all (n % 16) (Nat.mod_lt n (by decide))

theorem hexDigit_ascii (n : Nat) : (hexDigit n).toNat < 128 := by
  have all : ∀ k < 16, (Nat.digitChar k).toNat < 128 := by decide
  exact all (n % 16) (Nat.mod_lt n (by decide))

theorem feed_unit (draft : OpenText) (left sum : Nat) {digit : Nat} {c : Char}
    (ascii : c.toNat < 128) (value : hexValue? c = some digit) (cs : List Char) :
    feed ⟨containers, .unit isKey draft (left + 2) sum⟩ (c :: cs) =
      feed ⟨containers, .unit isKey draft (left + 1) (sum * 16 + digit)⟩ cs := by
  rw [feed_cons _ ascii]
  simp only [step, asChar_of_ascii ascii, value, Option.map_some, Option.bind_some]
  rw [if_neg (by omega)]
  rfl

theorem feed_lastUnit (draft : OpenText) (sum : Nat) {digit : Nat} {c : Char}
    (ascii : c.toNat < 128) (value : hexValue? c = some digit) :
    feed ⟨containers, .unit isKey draft 1 sum⟩ [c] =
      some ⟨containers, .text isKey (draft.utf16Unit (sum * 16 + digit))⟩ := by
  rw [feed_singleton _ ascii]
  simp only [step, asChar_of_ascii ascii, value, Option.map_some, Nat.le_refl, if_true]

theorem utf16Unit_of_control (before : List UInt8) {c : Char} (control : c.toNat < 32) :
    OpenText.utf16Unit ⟨before, none, true⟩ c.toNat =
      ⟨(String.utf8EncodeChar c).reverse ++ before, none, true⟩ := by
  have low : OpenText.isLow c.toNat = false := by
    simp only [OpenText.isLow, Bool.and_eq_false_iff, decide_eq_false_iff_not]
    omega
  have high : OpenText.isHigh c.toNat = false := by
    simp only [OpenText.isHigh, Bool.and_eq_false_iff, decide_eq_false_iff_not]
    omega
  simp only [OpenText.utf16Unit, low, high, OpenText.char, Char.ofNat_toNat]
  rfl

/-- A control character is read back from its code. -/
theorem feed_code (before : List UInt8) {c : Char} (control : c.toNat < 32) :
    feed ⟨containers, .text isKey ⟨before, none, true⟩⟩
        ['\\', 'u', '0', '0', hexDigit (c.toNat / 16), hexDigit c.toNat] =
      some ⟨containers, .text isKey ⟨(String.utf8EncodeChar c).reverse ++ before, none, true⟩⟩ := by
  have opening : ∀ cs, feed ⟨containers, .text isKey ⟨before, none, true⟩⟩ ('\\' :: 'u' :: cs) =
      feed ⟨containers, .unit isKey ⟨before, none, true⟩ 4 0⟩ cs := fun cs => rfl
  have zero : hexValue? '0' = some 0 := rfl
  have total : ((0 * 16 + 0) * 16 + 0) * 16 + c.toNat / 16 % 16 = c.toNat / 16 := by omega
  rw [opening, feed_unit _ 2 _ (by decide) zero, feed_unit _ 1 _ (by decide) zero,
    feed_unit _ 0 _ (hexDigit_ascii _) (hexValue?_hexDigit _), total,
    feed_lastUnit _ _ (hexDigit_ascii _) (hexValue?_hexDigit _), Nat.div_add_mod',
    utf16Unit_of_control before control]

/-- Every character is read back from its escape. -/
theorem feed_escape (before : List UInt8) (c : Char) :
    feed ⟨containers, .text isKey ⟨before, none, true⟩⟩ (escape c) =
      some ⟨containers, .text isKey ⟨(String.utf8EncodeChar c).reverse ++ before, none, true⟩⟩ := by
  simp only [escape]
  split
  next same => subst same; rfl
  next noQuote =>
    split
    next same => subst same; rfl
    next noSlash =>
      split
      next visible =>
        rw [feed, List.flatMap_singleton]
        exact run_plain before _ (isPlain_of_mem_utf8 noQuote noSlash visible)
      -- Five of the control characters have an escape of their own; the rest have a code.
      next hidden =>
        have control : c.toNat < 32 := Nat.not_le.mp hidden
        split
        next same => subst same; rfl
        split
        next same => subst same; rfl
        split
        next same => subst same; rfl
        split
        next same =>
          obtain rfl : c = Char.ofNat 8 := by rw [← same, Char.ofNat_toNat]
          rfl
        split
        next same =>
          obtain rfl : c = Char.ofNat 12 := by rw [← same, Char.ofNat_toNat]
          rfl
        next => exact feed_code before control

theorem feed_escapes (before : List UInt8) (cs : List Char) :
    feed ⟨containers, .text isKey ⟨before, none, true⟩⟩ (cs.flatMap escape) =
      some ⟨containers, .text isKey
        ⟨(cs.flatMap String.utf8EncodeChar).reverse ++ before, none, true⟩⟩ := by
  induction cs generalizing before with
  | nil => rfl
  | cons c rest ih =>
    rw [List.flatMap_cons, feed_append, feed_escape, Option.bind_some, ih]
    simp

theorem finish?_utf8 (s : String) :
    OpenText.finish? ⟨(s.toList.flatMap String.utf8EncodeChar).reverse ++ [], none, true⟩ =
      some s := by
  simp [OpenText.finish?, OpenText.settled, fromUTF8?_utf8]

/-- A text is read back as a value from its quote. -/
theorem feed_quote (containers : List Container) (opening : Bool) (s : String) :
    feed ⟨containers, .value opening⟩ (quote s) = some (place containers (.string s)) := by
  have first : ∀ cs, feed ⟨containers, .value opening⟩ ('"' :: cs) =
      feed ⟨containers, .text false ⟨[], none, true⟩⟩ cs := fun cs => by cases opening <;> rfl
  have last : ∀ draft, feed ⟨containers, .text false draft⟩ ['"'] =
      closeText containers false draft := fun draft => feed_singleton _ (by decide)
  rw [quote, List.cons_append, first, feed_append, feed_escapes, Option.bind_some, last]
  simp only [closeText, finish?_utf8]

/-- A text is read back as a key from its quote. -/
theorem feed_key (before : List (String × Json)) (key : String) (legible opening : Bool)
    (outer : List Container) (s : String) :
    feed ⟨.object before key legible :: outer, .key opening⟩ (quote s) =
      some ⟨.object before s legible :: outer, .colon⟩ := by
  have first : ∀ cs, feed ⟨.object before key legible :: outer, .key opening⟩ ('"' :: cs) =
      feed ⟨.object before key legible :: outer, .text true ⟨[], none, true⟩⟩ cs :=
    fun cs => by cases opening <;> rfl
  have last : ∀ containers draft, feed ⟨containers, .text true draft⟩ ['"'] =
      closeText containers true draft := fun containers draft => feed_singleton _ (by decide)
  rw [quote, List.cons_append, first, feed_append, feed_escapes, Option.bind_some, last]
  simp only [closeText, finish?_utf8]

end Reader

end Json

end ExchangeNode
