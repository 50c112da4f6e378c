import ExchangeNode.Timestamp.Basic

/-!
# Writing timestamps

`2024-05-01T12:00:00Z`, with a fraction of three, six or nine digits where one is needed. A year of
more than four digits, or before year 0, has a sign.
-/

namespace ExchangeNode.Timestamp

/-- A number with at least `width` digits. -/
def padded (width n : Nat) : List Char :=
  let digits := Nat.toDigits 10 n
  List.replicate (width - digits.length) '0' ++ digits

def renderYear (year : Int) : List Char :=
  if year < 0 then '-' :: padded 4 year.natAbs
  else if year ≤ 9999 then padded 4 year.natAbs
  else '+' :: padded 4 year.natAbs

def renderFraction (nanosecond : Nat) : List Char :=
  if nanosecond = 0 then []
  else if nanosecond % 1_000_000 = 0 then '.' :: padded 3 (nanosecond / 1_000_000)
  else if nanosecond % 1000 = 0 then '.' :: padded 6 (nanosecond / 1000)
  else '.' :: padded 9 nanosecond

def render (t : Timestamp) : List Char :=
  renderYear t.date.year ++ ['-'] ++ padded 2 t.date.month ++ ['-'] ++ padded 2 t.date.day ++
    ['T'] ++ padded 2 t.hour ++ [':'] ++ padded 2 t.minute ++ [':'] ++ padded 2 t.second ++
    renderFraction t.nanosecond ++ ['Z']

end ExchangeNode.Timestamp
