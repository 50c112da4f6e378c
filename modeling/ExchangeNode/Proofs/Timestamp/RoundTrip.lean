import Mathlib
import ExchangeNode.Timestamp.Reader

/-!
# Timestamps read back

The printer pads every number to the width that its reader takes at most, or puts a sign before it,
so each part of a timestamp ends where its reader stops. The parts are those of a proper moment, and
at no offset from UTC they stay as they are.
-/

namespace ExchangeNode.Timestamp

open Text (isBlank skipBlanks)

/-! ### Padded numbers -/

theorem isDigit_of_mem_padded {width n : Nat} {c : Char} (member : c ∈ padded width n) :
    c.isDigit := by
  rcases List.mem_append.mp member with zero | digit
  · rw [List.eq_of_mem_replicate zero]
    rfl
  · exact Nat.isDigit_of_mem_toDigits (by decide) (by decide) digit

theorem padded_ne_nil (width n : Nat) : padded width n ≠ [] :=
  List.append_ne_nil_of_right_ne_nil _ Nat.toDigits_ne_nil

/-- A padded number begins with a digit. -/
theorem padded_eq_cons (width n : Nat) :
    ∃ d more, padded width n = d :: more ∧ d.isDigit := by
  obtain ⟨d, more, split⟩ := List.exists_cons_of_ne_nil (padded_ne_nil width n)
  exact ⟨d, more, split, isDigit_of_mem_padded (by rw [split]; exact List.mem_cons_self)⟩

theorem length_padded {width n : Nat} (positive : 0 < width) (small : n < 10 ^ width) :
    (padded width n).length = width := by
  have fits := (Nat.length_toDigits_le_iff (b := 10) (n := n) (by decide) positive).mpr small
  simp only [padded, List.length_append, List.length_replicate]
  omega

@[simp] theorem valueOf_padded (width n : Nat) : valueOf (padded width n) = n := by
  rw [valueOf, padded, Nat.ofDigitChars_append, Nat.ofDigitChars_replicate_zero, Nat.mul_zero,
    Nat.ofDigitChars_ten_toDigits]

/-! ### Reading digits -/

theorem digitsUpTo_of_length {width : Nat} {digits : List Char} (all : ∀ c ∈ digits, c.isDigit)
    (nonempty : digits ≠ []) (length : digits.length = width) (rest : List Char) :
    digitsUpTo width (digits ++ rest) = some (digits, rest) := by
  subst length
  simp only [digitsUpTo, List.take_left, List.takeWhile_eq_self_iff.mpr all, List.drop_left,
    List.isEmpty_iff, nonempty, if_false]

theorem digitsUpTo_padded {width n : Nat} (positive : 0 < width) (small : n < 10 ^ width)
    (rest : List Char) : digitsUpTo width (padded width n ++ rest) = some (padded width n, rest) :=
  digitsUpTo_of_length (fun _ => isDigit_of_mem_padded) (padded_ne_nil width n)
    (length_padded positive small) rest

/-- Digits that something else follows. -/
theorem digitsAll_padded (width n : Nat) {c : Char} (noDigit : c.isDigit = false)
    (rest : List Char) :
    digitsAll (padded width n ++ c :: rest) = some (padded width n, c :: rest) := by
  have all : ∀ d ∈ padded width n, d.isDigit := fun _ => isDigit_of_mem_padded
  have stops : ¬ c.isDigit := by simp [noDigit]
  simp only [digitsAll, List.takeWhile_append_of_pos all, List.takeWhile_cons_of_neg stops,
    List.append_nil, List.drop_left, List.isEmpty_iff, padded_ne_nil, if_false]

/-! ### Blanks -/

theorem isBlank_of_isDigit {c : Char} (digit : c.isDigit) : isBlank c = false := by
  obtain ⟨low, high⟩ : 48 ≤ c.toNat ∧ c.toNat ≤ 57 := Char.isDigit_iff_toNat.mp digit
  simp only [isBlank, Text.blankRanges, List.any_cons, List.any_nil, Bool.or_false,
    Bool.or_eq_false_iff, Bool.and_eq_false_iff, decide_eq_false_iff_not]
  omega

theorem skipBlanks_cons {c : Char} (noBlank : isBlank c = false) (rest : List Char) :
    skipBlanks (c :: rest) = c :: rest :=
  List.dropWhile_cons_of_neg (by simp [noBlank])

theorem skipBlanks_padded (width n : Nat) (rest : List Char) :
    skipBlanks (padded width n ++ rest) = padded width n ++ rest := by
  obtain ⟨d, more, split, digit⟩ := padded_eq_cons width n
  rw [split, List.cons_append, skipBlanks_cons (isBlank_of_isDigit digit)]

/-! ### The parts of a timestamp -/

theorem readPair_padded {n : Nat} (small : n < 100) (rest : List Char) :
    readPair (padded 2 n ++ rest) = some (n, rest) := by
  rw [readPair, skipBlanks_padded, digitsUpTo_padded (by decide) small]
  simp only [Option.map_some, valueOf_padded]

theorem skipMark_cons {mark : Char} (noBlank : isBlank mark = false) (rest : List Char) :
    skipMark mark (mark :: rest) = some rest := by
  rw [skipMark, skipBlanks_cons noBlank]
  exact if_pos rfl

/-- A year is read back, with its sign where it has one. -/
theorem readYear_renderYear (year : Int) (rest : List Char) :
    readYear (renderYear year ++ '-' :: rest) = some (year, '-' :: rest) := by
  have dash : '-'.isDigit = false := rfl
  simp only [renderYear]
  split
  next negative =>
    have value : -(year.natAbs : Int) = year := by omega
    rw [List.cons_append, readYear, skipBlanks_cons rfl]
    simp only [digitsAll_padded 4 _ dash, Option.map_some, valueOf_padded, value]
  next positive =>
    have value : (year.natAbs : Int) = year := by omega
    split
    next short =>
      obtain ⟨d, more, split, digit⟩ := padded_eq_cons 4 year.natAbs
      rw [readYear, skipBlanks_padded]
      split
      -- A digit is no sign.
      next signed =>
        rw [split] at signed
        cases signed
        cases digit
      next signed =>
        rw [split] at signed
        cases signed
        cases digit
      next =>
        rw [digitsUpTo_padded (by decide) (by omega)]
        simp only [Option.map_some, valueOf_padded, value]
    next long =>
      rw [List.cons_append, readYear, skipBlanks_cons rfl]
      simp only [digitsAll_padded 4 _ dash, Option.map_some, valueOf_padded, value]

/-- A fraction is read back from three, six or nine digits. -/
theorem readFraction_renderFraction {nanosecond : Nat} (small : nanosecond < 10 ^ 9) :
    readFraction (renderFraction nanosecond ++ ['Z']) = some (nanosecond, ['Z']) := by
  have fraction : ∀ width n, 0 < width → n < 10 ^ width → width ≤ 9 →
      readFraction ('.' :: padded width n ++ ['Z']) = some (n * 10 ^ (9 - width), ['Z']) := by
    intro width n positive fits narrow
    have all : ∀ c ∈ padded width n, c.isDigit := fun _ => isDigit_of_mem_padded
    have taken : digitsUpTo 9 (padded width n ++ ['Z']) = some (padded width n, ['Z']) := by
      have whole : (padded width n ++ ['Z']).take 9 = padded width n ++ ['Z'].take (9 - width) := by
        rw [List.take_append, length_padded positive fits, List.take_of_length_le]
        rw [length_padded positive fits]
        exact narrow
      have stops : (['Z'].take (9 - width)).takeWhile Char.isDigit = [] := by
        cases 9 - width <;> rfl
      simp only [digitsUpTo, whole, List.takeWhile_append_of_pos all, stops, List.append_nil,
        List.isEmpty_iff, padded_ne_nil, if_false, List.drop_left]
    rw [List.cons_append, readFraction, taken]
    simp only [Option.map_some, valueOf_padded, length_padded positive fits]
    rfl
  simp only [renderFraction]
  split
  next zero => subst zero; rfl
  split
  next millis =>
    rw [fraction 3 _ (by decide) (by omega) (by decide)]
    congr 2
    omega
  split
  next micros =>
    rw [fraction 6 _ (by decide) (by omega) (by decide)]
    congr 2
    omega
  next =>
    rw [fraction 9 _ (by decide) small (by decide), Nat.sub_self, Nat.pow_zero, Nat.mul_one]

/-! ### The whole -/

theorem daysInMonth_lt (year : Int) (month : Nat) : Calendar.daysInMonth year month < 100 := by
  simp only [Calendar.daysInMonth]
  repeat' split
  all_goals decide

theorem of?_parts (t : Timestamp) : of? t.date t.hour t.minute t.second t.nanosecond = some t :=
  dif_pos t.proper

/-- What a clock in UTC shows is in UTC. -/
theorem atOffset?_zero (t : Timestamp) : t.atOffset? 0 = some t := by
  obtain ⟨-, hour, minute, -⟩ := t.proper
  have early : ¬ ((t.hour : Int) * 60 + t.minute - 0 < 0) := by omega
  have late : ¬ (1440 ≤ (t.hour : Int) * 60 + t.minute - 0) := by omega
  have inDay : (((t.hour : Int) * 60 + t.minute - 0) % 1440).toNat = t.hour * 60 + t.minute := by
    omega
  have hours : (t.hour * 60 + t.minute) / 60 = t.hour := by omega
  have minutes : (t.hour * 60 + t.minute) % 60 = t.minute := by omega
  rw [atOffset?]
  simp only [if_neg early, if_neg late, inDay, hours, minutes, of?_parts]

/-- A timestamp is read back from its text. -/
theorem read?_render (t : Timestamp) : read? t.render = some t := by
  obtain ⟨⟨-, -, -, month, -, day⟩, hour, minute, second, nanosecond⟩ := t.proper
  have days := daysInMonth_lt t.date.year t.date.month
  have zone : readZone ['Z'] = some (0, []) := rfl
  have text : t.render = renderYear t.date.year ++ '-' :: (padded 2 t.date.month ++
      '-' :: (padded 2 t.date.day ++ 'T' :: (padded 2 t.hour ++ ':' :: (padded 2 t.minute ++
        ':' :: (padded 2 t.second ++ (renderFraction t.nanosecond ++ ['Z'])))))) := by
    simp [render]
  have divide : ∀ rest, skipDivide ('T' :: rest) = some rest := fun _ => rfl
  have dash : ∀ rest, skipMark '-' ('-' :: rest) = some rest := fun _ => skipMark_cons rfl _
  have colon : ∀ rest, skipMark ':' (':' :: rest) = some rest := fun _ => skipMark_cons rfl _
  have pair : ∀ n < 100, ∀ rest, readPair (padded 2 n ++ rest) = some (n, rest) :=
    fun _ small _ => readPair_padded small _
  simp only [text, read?, bind, Option.bind, readYear_renderYear, dash, colon, divide,
    pair t.date.month (by omega), pair t.date.day (by omega), pair t.hour (by omega),
    pair t.minute (by omega), pair t.second (by omega), readFraction_renderFraction nanosecond,
    zone]
  -- The parts make up the moment, and at no offset they are those of UTC.
  have parts : of? ⟨t.date.year, t.date.month, t.date.day⟩ t.hour t.minute t.second t.nanosecond =
      some t := of?_parts t
  rw [if_pos (by rfl)]
  simp only [parts, atOffset?_zero]

end ExchangeNode.Timestamp
