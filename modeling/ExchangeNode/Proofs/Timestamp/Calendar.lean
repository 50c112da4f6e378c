import Mathlib
import ExchangeNode.Timestamp.Basic

/-!
# Dates and days

Unix milliseconds are read as a date by dividing out cycles, centuries, groups of four years, years
and months. Here the days of a date are counted the other way, by the rule for leap years, and the
two agree: the calendar gives each moment the date and the time of day that lie that many
milliseconds after the start of 1970 (`unixMillis_of_ofUnixMillis?`), and none of the first 2^43
milliseconds is without one (`exists_ofUnixMillis?`).
-/

namespace ExchangeNode

namespace Calendar.Date

/-- The date of a day of a year that begins with March. -/
def ofYearFromMarch (year : Int) (day : Nat) : Date :=
  let fromMarch := (5 * day + 2) / 153
  let inMonth := day - (153 * fromMarch + 2) / 5 + 1
  if fromMarch < 10 then ⟨year, fromMarch + 3, inMonth⟩ else ⟨year + 1, fromMarch - 9, inMonth⟩

/-- The number of days before a year, where years begin with March. -/
def daysBefore (year : Int) : Int := year * 365 + year / 4 - year / 100 + year / 400

/-- The number of days from the first of March of year 0 to a date. January and February belong to
the year before, so that the odd day is the last of its year. -/
def daysFromMarch (d : Date) : Int :=
  let fromMarch := (d.month + 9) % 12
  daysBefore (if d.month < 3 then d.year - 1 else d.year) + (153 * fromMarch + 2) / 5 + d.day - 1

/-- Whether a year that begins with March has a day of that number. -/
def HasDay (year : Int) (day : Nat) : Prop := day < 365 ∨ day = 365 ∧ isLeap (year + 1)

theorem HasDay.lt {year : Int} {day : Nat} (has : HasDay year day) : day < 366 := by
  rcases has with early | ⟨rfl, -⟩ <;> omega

/-! ### Years that begin with March -/

theorem daysBefore_of_parts (cycle : Int) {century group year : Nat} (fewCenturies : century < 4)
    (fewGroups : group < 25) (fewYears : year < 4) :
    daysBefore (cycle * 400 + (century * 100 + group * 4 + year : Nat)) =
      cycle * 146097 + (century * 36524 + group * 1461 + year * 365 : Nat) := by
  rw [daysBefore]
  omega

theorem hasDay_of_parts (cycle : Int) {century group year day : Nat} (fewGroups : group < 25)
    (small : day < 366)
    (odd : day = 365 → year = 3 ∧ (group = 24 → century = 3)) :
    HasDay (cycle * 400 + (century * 100 + group * 4 + year : Nat)) day := by
  by_cases early : day < 365
  · exact .inl early
  have last : day = 365 := by omega
  obtain ⟨rfl, century⟩ := odd last
  refine .inr ⟨last, ?_⟩
  simp only [isLeap, Bool.and_eq_true, Bool.or_eq_true, decide_eq_true_eq, ne_eq]
  omega

/-- A number of days is taken apart into a year and a day of it. -/
theorem exists_yearFromMarch (days : Int) :
    ∃ year day, ofDaysFromMarch days = ofYearFromMarch year day ∧ HasDay year day ∧
      days = daysBefore year + day := by
  obtain ⟨cycle, n, small, rfl⟩ : ∃ (cycle : Int) (n : Nat), n < 146097 ∧
      days = cycle * 146097 + n := ⟨days / 146097, (days % 146097).toNat, by omega, by omega⟩
  -- Each quotient gets a name, so that the rest of the proof is free of division.
  have inCycle : ((cycle * 146097 + n) % 146097).toNat = n := by omega
  have cycles : (cycle * 146097 + n) / 146097 = cycle := by omega
  obtain ⟨century, group, year, day, isCentury, isGroup, isYear, isDay, whole, fewCenturies,
      fewGroups, fewYears, fewDays, odd⟩ :
      ∃ century group year day,
        min (n / 36524) 3 = century ∧ (n - century * 36524) / 1461 = group ∧
        min ((n - century * 36524) % 1461 / 365) 3 = year ∧
        (n - century * 36524) % 1461 - year * 365 = day ∧
        n = century * 36524 + group * 1461 + year * 365 + day ∧
        century < 4 ∧ group < 25 ∧ year < 4 ∧ day < 366 ∧
        (day = 365 → year = 3 ∧ (group = 24 → century = 3)) := by
    refine ⟨_, _, _, _, rfl, rfl, rfl, rfl, ?_⟩
    omega
  refine ⟨cycle * 400 + (century * 100 + group * 4 + year : Nat), day, ?_, ?_, ?_⟩
  · simp only [ofDaysFromMarch, inCycle, cycles, isCentury, isGroup, isYear, isDay]
    rfl
  · exact hasDay_of_parts cycle fewGroups fewDays odd
  · rw [daysBefore_of_parts cycle fewCenturies fewGroups fewYears, whole]
    push_cast
    ring

/-! ### Months -/

/-- The months from March on, by the number of days before each of them. -/
theorem month_cases {day : Nat} (small : day < 366) :
    ∃ month, (5 * day + 2) / 153 = month ∧ month < 12 ∧ (153 * month + 2) / 5 ≤ day ∧
      day < (153 * (month + 1) + 2) / 5 := by
  refine ⟨_, rfl, ?_, ?_, ?_⟩
  all_goals omega

theorem daysFromMarch_ofYearFromMarch {year : Int} {day : Nat} (small : day < 366) :
    (ofYearFromMarch year day).daysFromMarch = daysBefore year + day := by
  obtain ⟨month, isMonth, few, begun, -⟩ := month_cases small
  simp only [ofYearFromMarch, isMonth]
  split
  -- From March to December the years agree; January and February come in the next one.
  next before =>
    have within : ¬ month + 3 < 3 := by omega
    have back : (month + 3 + 9) % 12 = month := by omega
    simp only [daysFromMarch, within, back, if_false]
    omega
  next after =>
    have within : month - 9 < 3 := by omega
    have back : (month - 9 + 9) % 12 = month := by omega
    simp only [daysFromMarch, within, back, if_true, Int.add_sub_cancel]
    omega

theorem daysFromMarch_ofDaysFromMarch (days : Int) :
    (ofDaysFromMarch days).daysFromMarch = days := by
  obtain ⟨year, day, isDate, has, whole⟩ := exists_yearFromMarch days
  rw [isDate, daysFromMarch_ofYearFromMarch has.lt, whole]

theorem proper_ofYearFromMarch {year : Int} {day : Nat} (has : HasDay year day)
    (late : -262143 ≤ year) (early : year < 262142) : (ofYearFromMarch year day).Proper := by
  obtain ⟨month, isMonth, few, begun, unfinished⟩ := month_cases has.lt
  simp only [ofYearFromMarch, isMonth]
  split
  next before =>
    simp only [Proper]
    refine ⟨late, by omega, by omega, by omega, by omega, ?_⟩
    simp only [daysInMonth]
    split
    · omega
    · split <;> omega
  next after =>
    simp only [Proper]
    refine ⟨by omega, by omega, by omega, by omega, by omega, ?_⟩
    simp only [daysInMonth]
    split
    -- February, whose last day is the odd one.
    · rcases has with before | ⟨rfl, leap⟩
      · split <;> omega
      · rw [if_pos leap]
        omega
    · split <;> omega

end Calendar.Date

namespace Timestamp

/-- A moment in Unix milliseconds. -/
def unixMillis (t : Timestamp) : Int :=
  (((t.date.daysFromMarch - 719468) * 24 + t.hour) * 60 + t.minute) * 60000 +
    (t.second * 1000 + t.nanosecond / 1000000 : Nat)

open Calendar

theorem eq_of_of? {date : Date} {hour minute second nanosecond : Nat} {t : Timestamp}
    (isTime : of? date hour minute second nanosecond = some t) :
    t.date = date ∧ t.hour = hour ∧ t.minute = minute ∧ t.second = second ∧
      t.nanosecond = nanosecond := by
  rw [of?] at isTime
  split at isTime
  · cases isTime
    exact ⟨rfl, rfl, rfl, rfl, rfl⟩
  · cases isTime

theorem unixMillis_of_ofUnixMillis? {millis : Int} {t : Timestamp}
    (isTime : ofUnixMillis? millis = some t) : t.unixMillis = millis := by
  obtain ⟨date, hour, minute, second, nanosecond⟩ := eq_of_of? isTime
  simp only [unixMillis, date, hour, minute, second, nanosecond, Date.ofUnixDays,
    Date.daysFromMarch_ofDaysFromMarch]
  omega

theorem exists_ofUnixMillis? {millis : Int} (late : 0 ≤ millis) (early : millis < 2 ^ 43) :
    ∃ t, ofUnixMillis? millis = some t := by
  obtain ⟨year, day, isDate, has, whole⟩ := Date.exists_yearFromMarch (millis / 86400000 + 719468)
  have small := has.lt
  have proper : (Date.ofUnixDays (millis / 86400000)).Proper := by
    rw [Date.ofUnixDays, isDate]
    rw [Date.daysBefore] at whole
    apply Date.proper_ofYearFromMarch has
    all_goals omega
  rw [ofUnixMillis?, of?]
  exact ⟨_, dif_pos ⟨proper, by omega, by omega, by omega, by omega⟩⟩

end Timestamp

end ExchangeNode
