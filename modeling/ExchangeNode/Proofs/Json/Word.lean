import Mathlib.Data.List.Basic
import Mathlib.Data.List.TakeWhile
import ExchangeNode.Json.Printer
import ExchangeNode.Json.Reader

/-!
# Numbers read back

A whole number of 64 bits is read back from its digits. Of a real only one thing is needed here:
whatever text is a number at all consists of the characters that a word may have.
-/

namespace ExchangeNode.Json

/-! ### Digits -/

theorem takeWhile_toDigits (n : Nat) :
    (Nat.toDigits 10 n).takeWhile Char.isDigit = Nat.toDigits 10 n :=
  List.takeWhile_eq_self_iff.mpr fun _ member =>
    Nat.isDigit_of_mem_toDigits (by decide) (by decide) member

theorem dropWhile_toDigits (n : Nat) : (Nat.toDigits 10 n).dropWhile Char.isDigit = [] :=
  List.dropWhile_eq_nil_iff.mpr fun _ member =>
    Nat.isDigit_of_mem_toDigits (by decide) (by decide) member

theorem digitChar_ne_zero : ∀ n < 10, 0 < n → Nat.digitChar n ≠ '0' := by decide

/-- Only the number zero begins with a zero. -/
theorem head?_toDigits {n : Nat} (positive : 0 < n) : (Nat.toDigits 10 n).head? ≠ some '0' := by
  induction n using Nat.strongRecOn with
  | ind n ih =>
    by_cases small : n < 10
    · rw [Nat.toDigits_of_lt_base small]
      simpa using digitChar_ne_zero n small positive
    -- The first digit is that of the number without its last one.
    · have shorter := ih (n / 10) (by omega) (by omega)
      rw [Nat.toDigits_of_base_le (by decide) (by omega)]
      rwa [List.head?_append_of_ne_nil _ Nat.toDigits_ne_nil]

theorem wholePart?_toDigits (n : Nat) :
    wholePart? (Nat.toDigits 10 n) = some (Nat.toDigits 10 n, []) := by
  simp only [wholePart?, takeWhile_toDigits, dropWhile_toDigits]
  split
  next none => exact absurd none Nat.toDigits_ne_nil
  next digits =>
    rcases Nat.eq_zero_or_pos n with rfl | positive
    · simp at digits
    · exact absurd (by rw [digits]; rfl) (head?_toDigits positive)
  next => rfl

theorem numeral?_toDigits (n : Nat) :
    numeral? (Nat.toDigits 10 n) = some ⟨Nat.toDigits 10 n, [], false, []⟩ := by
  simp [numeral?, wholePart?_toDigits, fractionPart?, powerPart?]

theorem number?_toDigits {n : Nat} (small : n < 0x10000000000000000) :
    number? (Nat.toDigits 10 n) = some (.integer n) := by
  have value : ofNumeral false ⟨Nat.toDigits 10 n, [], false, []⟩ = .integer n := by
    simp [ofNumeral, Nat.ofDigitChars_ten_toDigits, small]
  simp only [number?]
  split
  -- A sign is no digit.
  next digits =>
    have isDigit : '-'.isDigit := Nat.isDigit_of_mem_toDigits (b := 10) (n := n) (by decide)
      (by decide) (by rw [digits]; exact List.mem_cons_self)
    exact absurd isDigit (by decide)
  next => rw [numeral?_toDigits, Option.map_some, value]

theorem number?_negated {n : Nat} (positive : 0 < n) (small : n ≤ 0x8000000000000000) :
    number? ('-' :: Nat.toDigits 10 n) = some (.integer (-n)) := by
  have value : ofNumeral true ⟨Nat.toDigits 10 n, [], false, []⟩ = .integer (-n) := by
    simp [ofNumeral, Nat.ofDigitChars_ten_toDigits, positive, small]
  rw [number?, numeral?_toDigits, Option.map_some, value]

/-- A whole number that fits 64 bits, with or without a sign, is read back. -/
theorem number?_renderInteger {n : Int} (lower : -0x8000000000000000 ≤ n)
    (upper : n < 0x10000000000000000) :
    number? (renderInteger n) = some (.integer n) := by
  simp only [renderInteger]
  split
  next negative =>
    rw [number?_negated (by omega) (by omega)]
    congr 2
    omega
  next =>
    rw [number?_toDigits (by omega)]
    congr 2
    omega

/-! ### The characters of a number -/

theorem isWordChar_of_isDigit {c : Char} (digit : c.isDigit) : isWordChar c := by
  simp [isWordChar, Char.isAlphanum, digit]

/-- Where a part of a number is read, what was taken are word characters. -/
def Takes (before after : List Char) : Prop :=
  ∃ taken, before = taken ++ after ∧ ∀ c ∈ taken, isWordChar c

theorem takes_digits (cs : List Char) : Takes cs (cs.dropWhile Char.isDigit) :=
  ⟨cs.takeWhile Char.isDigit, List.takeWhile_append_dropWhile.symm, fun _ member =>
    isWordChar_of_isDigit (List.mem_takeWhile_imp member)⟩

theorem Takes.refl (cs : List Char) : Takes cs cs := ⟨[], rfl, nofun⟩

theorem Takes.cons {c : Char} {cs rest : List Char} (isWord : isWordChar c)
    (takes : Takes cs rest) : Takes (c :: cs) rest := by
  obtain ⟨taken, rfl, all⟩ := takes
  exact ⟨c :: taken, rfl, List.forall_mem_cons.mpr ⟨isWord, all⟩⟩

theorem Takes.trans {first second third : List Char} (one : Takes first second)
    (two : Takes second third) : Takes first third := by
  obtain ⟨taken, rfl, all⟩ := one
  obtain ⟨more, rfl, others⟩ := two
  exact ⟨taken ++ more, (List.append_assoc ..).symm, List.forall_mem_append.mpr ⟨all, others⟩⟩

theorem takes_wholePart? {cs digits rest : List Char} (read : wholePart? cs = some (digits, rest)) :
    Takes cs rest := by
  simp only [wholePart?] at read
  split at read
  · cases read
  · cases read
  · cases read
    exact takes_digits cs

theorem takes_digits? {cs digits rest : List Char} (read : digits? cs = some (digits, rest)) :
    Takes cs rest := by
  simp only [digits?] at read
  split at read
  · cases read
  · cases read
    exact takes_digits cs

theorem takes_fractionPart? {cs digits rest : List Char}
    (read : fractionPart? cs = some (digits, rest)) : Takes cs rest := by
  simp only [fractionPart?] at read
  split at read
  · exact (takes_digits? read).cons (by decide)
  · cases read
    exact .refl _

theorem takes_powerPart? {cs : List Char} {negative : Bool} {digits rest : List Char}
    (read : powerPart? cs = some (negative, digits, rest)) : Takes cs rest := by
  match cs with
  | [] =>
    cases read
    exact .refl _
  | e :: tail =>
    simp only [powerPart?] at read
    split at read
    next mark =>
      have isWord : isWordChar e := by rcases mark with rfl | rfl <;> decide
      obtain ⟨⟨ds, left⟩, digits, same⟩ := Option.map_eq_some_iff.mp read
      cases same
      refine .cons isWord ?_
      -- The sign may be absent.
      split at digits
      · exact (takes_digits? digits).cons (by decide)
      · exact (takes_digits? digits).cons (by decide)
      · exact takes_digits? digits
    next =>
      cases read
      exact .refl _

theorem isWordChar_of_numeral? {cs : List Char} {n : Decimal.Numeral}
    (read : numeral? cs = some n) : ∀ c ∈ cs, isWordChar c := by
  simp only [numeral?, Option.bind_eq_bind, Option.bind_eq_some_iff] at read
  obtain ⟨⟨whole, afterWhole⟩, isWhole, ⟨fraction, afterFraction⟩, isFraction,
    ⟨negative, power, rest⟩, isPower, ended⟩ := read
  have takes : Takes cs rest :=
    ((takes_wholePart? isWhole).trans (takes_fractionPart? isFraction)).trans
      (takes_powerPart? isPower)
  dsimp only at ended
  split at ended
  next empty =>
    obtain ⟨taken, rfl, all⟩ := takes
    rw [List.isEmpty_iff] at empty
    simpa [empty] using all
  next => cases ended

/-- A text that is a number consists of word characters. -/
theorem isWordChar_of_number? {cs : List Char} {j : Json} (read : number? cs = some j) :
    ∀ c ∈ cs, isWordChar c := by
  simp only [number?] at read
  split at read
  · obtain ⟨n, isNumeral, -⟩ := Option.map_eq_some_iff.mp read
    exact List.forall_mem_cons.mpr ⟨by decide, isWordChar_of_numeral? isNumeral⟩
  · obtain ⟨n, isNumeral, -⟩ := Option.map_eq_some_iff.mp read
    exact isWordChar_of_numeral? isNumeral

end ExchangeNode.Json
