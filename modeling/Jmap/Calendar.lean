/-! Days of the Gregorian calendar, extended over all years, and their numbers
counted from the first day of 1970. Years are taken from March to February, so
that the leap day comes last. -/
namespace Jmap

structure CalendarDay where
  year : Int
  month : Nat
  day : Nat
  deriving DecidableEq

namespace CalendarDay

def isLeapYear (year : Int) : Bool := year % 4 == 0 && (year % 100 != 0 || year % 400 == 0)

def daysInMonth (year : Int) (month : Nat) : Nat :=
  if month = 2 then if isLeapYear year then 29 else 28
  else if month = 4 ∨ month = 6 ∨ month = 9 ∨ month = 11 then 30
  else 31

def isValid (date : CalendarDay) : Bool :=
  1 ≤ date.month && date.month ≤ 12 && 1 ≤ date.day && date.day ≤ daysInMonth date.year date.month

/-- The first of March of year zero, counted from the first of January 1970. -/
def marchOfYearZero : Int := -719468

def daysInEra : Int := 146097

/-- Days from the first of March to the first of the month that many months later. -/
def daysBeforeMonth (monthsFromMarch : Nat) : Nat := (153 * monthsFromMarch + 2) / 5

def number (date : CalendarDay) : Int :=
  let year := if date.month ≤ 2 then date.year - 1 else date.year
  let monthsFromMarch := if date.month ≤ 2 then date.month + 9 else date.month - 3
  let yearOfEra := year % 400
  year / 400 * daysInEra + (365 * yearOfEra + yearOfEra / 4 - yearOfEra / 100) +
    (daysBeforeMonth monthsFromMarch + date.day - 1 : Nat) + marchOfYearZero

/-- Centuries, leap cycles of four years and years are taken off in turn; the
last century and the last year of a cycle may be a day longer. -/
def ofNumber (number : Int) : CalendarDay :=
  let sinceYearZero := number - marchOfYearZero
  let dayOfEra := (sinceYearZero % daysInEra).toNat
  let century := min 3 (dayOfEra / 36524)
  let dayOfCentury := dayOfEra - century * 36524
  let cycle := dayOfCentury / 1461
  let dayOfCycle := dayOfCentury - cycle * 1461
  let yearOfCycle := min 3 (dayOfCycle / 365)
  let dayOfYear := dayOfCycle - yearOfCycle * 365
  let monthsFromMarch := (5 * dayOfYear + 2) / 153
  let year := sinceYearZero / daysInEra * 400 + (century * 100 + cycle * 4 + yearOfCycle : Nat)
  let day := dayOfYear - daysBeforeMonth monthsFromMarch + 1
  if monthsFromMarch < 10 then ⟨year,monthsFromMarch + 3,day⟩
  else ⟨year + 1,monthsFromMarch - 9,day⟩

end CalendarDay
end Jmap
