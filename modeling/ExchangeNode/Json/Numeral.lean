import ExchangeNode.Json.Basic
import ExchangeNode.Decimal.Scaled

/-!
# JSON numbers

A number without point and exponent is an integer when it fits 64 bits, with or without a sign.
Minus zero is not a whole number. All others are reals, and one that is too large is garbled.
-/

namespace ExchangeNode.Json

/-- Digits, of which the first is no zero unless it is the only one, and what follows them. -/
def wholePart? (cs : List Char) : Option (List Char × List Char) :=
  let digits := cs.takeWhile Char.isDigit
  let rest := cs.dropWhile Char.isDigit
  match digits with
  | [] => none
  | '0' :: _ :: _ => none
  | _ => some (digits, rest)

def digits? (cs : List Char) : Option (List Char × List Char) :=
  let digits := cs.takeWhile Char.isDigit
  if digits.isEmpty then none else some (digits, cs.dropWhile Char.isDigit)

def fractionPart? : List Char → Option (List Char × List Char)
  | '.' :: rest => digits? rest
  | rest => some ([], rest)

/-- The sign and the digits of an exponent. -/
def powerPart? : List Char → Option (Bool × List Char × List Char)
  | e :: rest =>
    if e = 'e' ∨ e = 'E' then
      let (negative, rest) := match rest with
        | '+' :: rest => (false, rest)
        | '-' :: rest => (true, rest)
        | rest => (false, rest)
      (digits? rest).map fun (digits, rest) => (negative, digits, rest)
    else some (false, [], e :: rest)
  | [] => some (false, [], [])

/-- An unsigned number that fills its text. -/
def numeral? (cs : List Char) : Option Decimal.Numeral := do
  let (whole, rest) ← wholePart? cs
  let (fraction, rest) ← fractionPart? rest
  let (powerNegative, power, rest) ← powerPart? rest
  if rest.isEmpty then some ⟨whole, fraction, powerNegative, power⟩ else none

/-- The value of an unsigned number under a sign. -/
def ofNumeral (negative : Bool) (n : Decimal.Numeral) : Json :=
  let size := Nat.ofDigitChars 10 n.whole 0
  let isWhole := n.fraction.isEmpty && n.power.isEmpty
  if isWhole && !negative && size < 0x10000000000000000 then .integer size
  else if isWhole && negative && 0 < size && size ≤ 0x8000000000000000 then .integer (-size)
  else match n.value? with
    | some x => .real (if negative then -x else x)
    | none => .garbled

def number? : List Char → Option Json
  | '-' :: cs => (numeral? cs).map (ofNumeral true)
  | cs => (numeral? cs).map (ofNumeral false)

end ExchangeNode.Json
