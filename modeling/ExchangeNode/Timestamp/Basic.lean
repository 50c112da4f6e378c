/-!
# Timestamps

A moment in UTC as calendar date and time of day, to the nanosecond. A leap second is second 60 of
its minute. Years run from -262143 to 262142.
-/

namespace ExchangeNode

namespace Calendar

def isLeap (year : Int) : Bool := year % 4 = 0 && (year % 100 ≠ 0 || year % 400 = 0)

def daysInMonth (year : Int) (month : Nat) : Nat :=
  if month = 2 then if isLeap year then 29 else 28
  else if month = 4 ∨ month = 6 ∨ month = 9 ∨ month = 11 then 30
  else 31

/-- A date of the calendar that is counted back and forth without end. -/
structure Date where
  year : Int
  month : Nat
  day : Nat
  deriving DecidableEq, Repr

namespace Date

def Proper (d : Date) : Prop :=
  -262143 ≤ d.year ∧ d.year ≤ 262142 ∧ 1 ≤ d.month ∧ d.month ≤ 12 ∧ 1 ≤ d.day ∧
    d.day ≤ daysInMonth d.year d.month

instance (d : Date) : Decidable d.Proper := by unfold Proper; infer_instance

def next (d : Date) : Date :=
  if d.day < daysInMonth d.year d.month then { d with day := d.day + 1 }
  else if d.month < 12 then ⟨d.year, d.month + 1, 1⟩
  else ⟨d.year + 1, 1, 1⟩

def previous (d : Date) : Date :=
  if 1 < d.day then { d with day := d.day - 1 }
  else if 1 < d.month then ⟨d.year, d.month - 1, daysInMonth d.year (d.month - 1)⟩
  else ⟨d.year - 1, 12, 31⟩

/-- The date a number of days after the first of March of year 0. Counted from a first of March,
each cycle of 400 years, century, group of four years and year has its odd day at its end. -/
def ofDaysFromMarch (days : Int) : Date :=
  let cycle := days / 146097
  let inCycle := (days % 146097).toNat
  let century := min (inCycle / 36524) 3
  let inCentury := inCycle - century * 36524
  let group := inCentury / 1461
  let inGroup := inCentury % 1461
  let year := min (inGroup / 365) 3
  let inYear := inGroup - year * 365
  let fromMarch := (5 * inYear + 2) / 153
  let day := inYear - (153 * fromMarch + 2) / 5 + 1
  let years : Int := cycle * 400 + (century * 100 + group * 4 + year : Nat)
  if fromMarch < 10 then ⟨years, fromMarch + 3, day⟩ else ⟨years + 1, fromMarch - 9, day⟩

/-- The date a number of days after the first of January 1970. -/
def ofUnixDays (days : Int) : Date := ofDaysFromMarch (days + 719468)

end Date

end Calendar

structure Timestamp where
  date : Calendar.Date
  hour : Nat
  minute : Nat
  second : Nat
  nanosecond : Nat
  proper : date.Proper ∧ hour < 24 ∧ minute < 60 ∧ second ≤ 60 ∧ nanosecond < 1_000_000_000
  deriving DecidableEq, Repr

namespace Timestamp

/-- The moment with these parts, if there is one. -/
def of? (date : Calendar.Date) (hour minute second nanosecond : Nat) : Option Timestamp :=
  if h : date.Proper ∧ hour < 24 ∧ minute < 60 ∧ second ≤ 60 ∧ nanosecond < 1_000_000_000 then
    some ⟨date, hour, minute, second, nanosecond, h⟩
  else none

/-- The same moment, where the parts were read off a clock that is ahead of UTC by `offset`
minutes, less than a day. -/
def atOffset? (t : Timestamp) (offset : Int) : Option Timestamp :=
  let minutes : Int := t.hour * 60 + t.minute - offset
  let date :=
    if minutes < 0 then t.date.previous else if 1440 ≤ minutes then t.date.next else t.date
  let inDay := (minutes % 1440).toNat
  of? date (inDay / 60) (inDay % 60) t.second t.nanosecond

def ofUnixMillis? (millis : Int) : Option Timestamp :=
  let inDay := (millis % 86400000).toNat
  of? (Calendar.Date.ofUnixDays (millis / 86400000)) (inDay / 3600000) (inDay / 60000 % 60)
    (inDay / 1000 % 60) (inDay % 1000 * 1_000_000)

/-- The first of January 1970. -/
def epoch : Timestamp := ⟨⟨1970, 1, 1⟩, 0, 0, 0, 0, by decide⟩

instance : Inhabited Timestamp := ⟨epoch⟩

/-- What a wall clock in Unix milliseconds shows. -/
def ofClock (clock : Int) : Timestamp := (ofUnixMillis? clock).getD epoch

end Timestamp

end ExchangeNode
