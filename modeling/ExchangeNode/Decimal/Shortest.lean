/-!
# Shortest decimals

The text of a finite floating-point number is the shortest decimal that reads back as the number.
The number is an exact fraction `significand * 2 ^ exponent`, and every decimal nearer to it than to
its neighbours reads back. For one digit, two digits and so on up to seventeen, the only candidates
are the two points of that decimal grid around the number: if any point of the grid reads back, one
of these two does. The first grid with a candidate fixes the number of digits.
-/

namespace ExchangeNode.Decimal

/-- A finite magnitude `significand * 2 ^ exponent`, and whether it is the first of its binade. -/
structure Magnitude where
  significand : Nat
  exponent : Int
  first : Bool
  deriving DecidableEq, Repr

/-- A decimal `coefficient * 10 ^ exponent`. -/
structure Expansion where
  coefficient : Nat
  exponent : Int
  deriving DecidableEq, Repr

def negative (x : Float) : Bool := x.toBits >>> 63 == 1

/-- Absent for infinities and for what is not a number. -/
def magnitude? (x : Float) : Option Magnitude :=
  let bits : Nat := x.toBits.toNat % 0x8000000000000000
  let biased : Nat := bits / 0x10000000000000
  let fraction : Nat := bits % 0x10000000000000
  if biased = 2047 then none
  else if biased = 0 then some ⟨fraction, -1074, false⟩
  else some ⟨fraction + 0x10000000000000, (biased : Int) - 1075, fraction = 0 && 1 < biased⟩

/-- The number, the ends of the interval that reads back as it, and one unit of the grid
`10 ^ place`, all as multiples of the same small quantity. -/
structure Grid where
  value : Nat
  low : Nat
  high : Nat
  unit : Nat
  closed : Bool

namespace Magnitude

def grid (m : Magnitude) (place : Int) : Grid :=
  let up := Nat.pow 10 (-place).toNat <<< (m.exponent - 2).toNat
  { value := 4 * m.significand * up
    low := (4 * m.significand - if m.first then 1 else 2) * up
    high := (4 * m.significand + 2) * up
    unit := Nat.pow 10 place.toNat <<< (2 - m.exponent).toNat
    closed := m.significand % 2 = 0 }

/-- The power of ten of the leading digit. -/
def leading (m : Magnitude) : Int :=
  let num := m.significand <<< m.exponent.toNat
  let den := 1 <<< (-m.exponent).toNat
  if den ≤ num then ((Nat.toDigits 10 (num / den)).length : Int) - 1
  else -((Nat.toDigits 10 ((den + num - 1) / num - 1)).length : Int)

end Magnitude

namespace Grid

def contains (g : Grid) (point : Nat) : Bool :=
  if g.closed then g.low ≤ point && point ≤ g.high else g.low < point && point < g.high

/-- The nearer of the two neighbours on the grid that read back; of two equally near, the even. -/
def nearest? (g : Grid) : Option Nat :=
  let below := g.value / g.unit
  let rest := g.value % g.unit
  match g.contains (below * g.unit), g.contains ((below + 1) * g.unit) with
  | false, false => none
  | true, false => some below
  | false, true => some (below + 1)
  | true, true =>
    if 2 * rest < g.unit || (2 * rest == g.unit && below % 2 == 0) then some below
    else some (below + 1)

end Grid

/-- The first grid, from `digits` digits on, that holds a decimal reading back as the number. -/
def search (m : Magnitude) (digits : Nat) : Nat → Expansion
  | 0 => ⟨m.significand, 0⟩
  | tries + 1 =>
    let place := m.leading + 1 - digits
    match (m.grid place).nearest? with
    | some c => ⟨c, place⟩
    | none => search m (digits + 1) tries

def shortest (m : Magnitude) : Expansion := search m 1 17

/-- Where positional notation begins and ends, as powers of ten of the leading digit. -/
structure Layout where
  smallest : Int
  largest : Int
  deriving DecidableEq, Repr

private def dropZeros (digits : List Char) : List Char :=
  (digits.reverse.dropWhile (· == '0')).reverse

namespace Layout

private def scientific (digits : List Char) (power : Int) : List Char :=
  let tail := match digits with
    | [] => ['0']
    | [d] => [d]
    | d :: ds => d :: '.' :: ds
  tail ++ ['e', if power < 0 then '-' else '+'] ++ Nat.toDigits 10 power.natAbs

private def positional (digits : List Char) (power : Int) : List Char :=
  if power < 0 then
    ['0', '.'] ++ List.replicate ((-power).toNat - 1) '0' ++ digits
  else
    let whole := power.toNat + 1
    let padded := digits ++ List.replicate (whole - digits.length) '0'
    let fraction := padded.drop whole
    padded.take whole ++ ['.'] ++ if fraction.isEmpty then ['0'] else fraction

def write (layout : Layout) (d : Expansion) : List Char :=
  let digits := Nat.toDigits 10 d.coefficient
  let power := d.exponent + digits.length - 1
  let digits := dropZeros digits
  if layout.smallest ≤ power && power ≤ layout.largest then positional digits power
  else scientific digits power

end Layout

/-- The text of a number under a layout; absent when it is not finite. -/
def render (layout : Layout) (x : Float) : Option (List Char) :=
  (magnitude? x).map fun m =>
    let text := if m.significand = 0 then ['0', '.', '0'] else layout.write (shortest m)
    if negative x then '-' :: text else text

end ExchangeNode.Decimal
