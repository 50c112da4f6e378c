/-!
# Reading decimals by scaling

The digits of a decimal are gathered into a whole number as long as that stays below `2 ^ 64`; the
digits after that only move the point. The whole number becomes a floating-point number and is then
multiplied or divided once by a power of ten, so the result may miss the nearest number by its last
bit. A decimal too large for a finite number has no value.
-/

namespace ExchangeNode.Decimal

/-- The digits of a decimal: before the point, after it, and the power of ten, with its sign. -/
structure Numeral where
  whole : List Char
  fraction : List Char
  powerNegative : Bool
  power : List Char
  deriving DecidableEq, Repr

def digitValue (c : Char) : Nat := c.toNat - '0'.toNat

/-- The number of the leading digits that stay below `2 ^ 64`, and the digits left over. -/
def gather (sum : Nat) : List Char → Nat × List Char
  | [] => (sum, [])
  | c :: rest =>
    let next := sum * 10 + digitValue c
    if next < 0x10000000000000000 then gather next rest else (sum, c :: rest)

private def largestPower : Nat := 308

def powerOfTen (n : Nat) : Float := Float.ofScientific 1 false n

/-- `x * 10 ^ power`, in steps of the powers of ten that are finite. -/
def scale (x : Float) (power : Int) : Option Float :=
  if power.natAbs ≤ largestPower then
    if power < 0 then some (x / powerOfTen power.natAbs)
    else
      let product := x * powerOfTen power.natAbs
      if product.isInf then none else some product
  else if x == 0.0 then some x
  else if 0 ≤ power then none
  else scale (x / powerOfTen largestPower) (power + largestPower)
termination_by power.natAbs
decreasing_by simp only [largestPower] at *; omega

/-- The value of an unsigned decimal; absent when it exceeds every finite number. -/
def Numeral.value? (n : Numeral) : Option Float :=
  let (head, dropped) := gather 0 n.whole
  let (sum, ignored) := gather head n.fraction
  let point : Int := dropped.length - (n.fraction.length - ignored.length)
  let power := Nat.ofDigitChars 10 n.power 0
  if power < 0x80000000 then
    scale sum.toUInt64.toFloat (if n.powerNegative then point - power else point + power)
  else if sum ≠ 0 && !n.powerNegative then none
  else some 0.0

/-- The nearest number to an unsigned decimal, infinite when it exceeds every finite number. -/
def Numeral.nearest (n : Numeral) : Float :=
  let coefficient := Nat.ofDigitChars 10 (n.whole ++ n.fraction) 0
  let power := Nat.ofDigitChars 10 n.power 0
  let exponent : Int := (if n.powerNegative then -(power : Int) else power) - n.fraction.length
  let leading := exponent + (Nat.toDigits 10 coefficient).length
  if coefficient = 0 then 0.0
  else if 400 < leading then 1.0 / 0.0
  else if leading < -400 then 0.0
  else if exponent < 0 then Float.ofScientific coefficient true exponent.natAbs
  else Float.ofScientific coefficient false exponent.natAbs

end ExchangeNode.Decimal
