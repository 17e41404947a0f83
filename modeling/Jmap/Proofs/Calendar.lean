import Jmap.Calendar
import Mathlib.Tactic.IntervalCases
import Mathlib.Tactic.SplitIfs

/-! Days and their numbers: every number is that of one day that exists, every day that
exists is the one of its number, and the years with four digits are the numbers of one
interval. -/
namespace Jmap

/-- A day placed in a year from March on, the year in its cycle of four, the cycle in its
century and the century in its era of four hundred years. -/
structure MarchDay where
  era : Int
  century : Nat
  cycle : Nat
  year : Nat
  day : Nat

namespace MarchDay

def ofNumber (number : Int) : MarchDay :=
  let sinceYearZero := number - CalendarDay.marchOfYearZero
  let dayOfEra := (sinceYearZero % CalendarDay.daysInEra).toNat
  let century := min 3 (dayOfEra / 36524)
  let dayOfCentury := dayOfEra - century * 36524
  let cycle := dayOfCentury / 1461
  let dayOfCycle := dayOfCentury - cycle * 1461
  let year := min 3 (dayOfCycle / 365)
  ⟨sinceYearZero / CalendarDay.daysInEra,century,cycle,year,dayOfCycle - year * 365⟩

def yearOfEra (place : MarchDay) : Nat := place.century * 100 + place.cycle * 4 + place.year

/-- Days of the era before the year from March on. -/
def daysBefore (place : MarchDay) : Nat := place.century * 36524 + place.cycle * 1461 + place.year * 365

def number (place : MarchDay) : Int :=
  place.era * CalendarDay.daysInEra + (place.daysBefore + place.day : Nat) + CalendarDay.marchOfYearZero

def months (place : MarchDay) : Nat := (5 * place.day + 2) / 153

def dayOfMonth (place : MarchDay) : Nat := place.day - CalendarDay.daysBeforeMonth place.months + 1

def date (place : MarchDay) : CalendarDay :=
  if place.months < 10 then ⟨place.era * 400 + place.yearOfEra,place.months + 3,place.dayOfMonth⟩
  else ⟨place.era * 400 + place.yearOfEra + 1,place.months - 9,place.dayOfMonth⟩

theorem date_ofNumber (number : Int) : (ofNumber number).date = .ofNumber number := rfl

/-- The last day of a year from March on is the leap day. Of the years in a cycle the last
one has it, but in the last cycle of a century only if the century is the last of its era. -/
structure Proper (place : MarchDay) : Prop where
  century : place.century ≤ 3
  cycle : place.cycle ≤ 24
  year : place.year ≤ 3
  day : place.day ≤ 365
  leap : place.day = 365 → place.year = 3 ∧ (place.cycle = 24 → place.century = 3)

theorem proper_ofNumber (number : Int) : (ofNumber number).Proper := by
  constructor <;> simp only [ofNumber,CalendarDay.daysInEra] <;> omega

theorem number_ofNumber (number : Int) : (ofNumber number).number = number := by
  simp only [ofNumber,MarchDay.number,daysBefore,CalendarDay.daysInEra]
  omega

variable {place : MarchDay}

theorem yearOfEra_lt (proper : place.Proper) : place.yearOfEra < 400 := by
  obtain ⟨century,cycle,year,_,_⟩ := proper
  unfold yearOfEra
  omega

theorem daysBefore_eq (proper : place.Proper) :
    (place.daysBefore : Int) = 365 * place.yearOfEra + place.yearOfEra / 4 - place.yearOfEra / 100 := by
  obtain ⟨century,cycle,year,_,_⟩ := proper
  unfold daysBefore yearOfEra
  omega

/-- The last year of an era begins 366 days before its end, and every other one earlier
by a year or more. -/
theorem daysBefore_le (proper : place.Proper) : place.daysBefore ≤ 145731 ∧
    (place.yearOfEra < 399 → place.daysBefore ≤ 145366) ∧ (place.yearOfEra = 399 → place.daysBefore = 145731) := by
  obtain ⟨century,cycle,year,_,_⟩ := proper
  unfold daysBefore yearOfEra
  omega

/-- The leap day is in February of the next year, which is a leap year. -/
theorem isLeapYear_next (proper : place.Proper) (last : place.day = 365) :
    CalendarDay.isLeapYear (place.era * 400 + place.yearOfEra + 1) := by
  obtain ⟨century,cycle,year,_,leap⟩ := proper
  obtain ⟨inCycle,inEra⟩ := leap last
  simp only [CalendarDay.isLeapYear,Bool.and_eq_true,Bool.or_eq_true,beq_iff_eq,bne_iff_ne]
  unfold yearOfEra
  omega

theorem months_le (proper : place.Proper) : place.months ≤ 11 := by
  have day := proper.day
  unfold months
  omega

theorem daysBeforeMonth_le (place : MarchDay) : CalendarDay.daysBeforeMonth place.months ≤ place.day := by
  unfold CalendarDay.daysBeforeMonth months
  omega

theorem number_date (proper : place.Proper) : place.date.number = place.number := by
  have inEra := yearOfEra_lt proper
  have before := daysBefore_eq proper
  have months := months_le proper
  have month := daysBeforeMonth_le place
  unfold date
  split
  next early =>
    have later : ¬place.months + 3 ≤ 2 := by omega
    simp only [CalendarDay.number,if_neg later,number,dayOfMonth,Nat.add_sub_cancel,CalendarDay.daysInEra]
    omega
  next late =>
    have within : place.months - 9 ≤ 2 := by omega
    have back : place.months - 9 + 9 = place.months := by omega
    simp only [CalendarDay.number,if_pos within,number,dayOfMonth,back,Int.add_sub_cancel,CalendarDay.daysInEra]
    omega

theorem dayOfMonth_le (proper : place.Proper) :
    place.dayOfMonth ≤ CalendarDay.daysInMonth place.date.year place.date.month := by
  have day := proper.day
  have months : place.months = (5 * place.day + 2) / 153 := rfl
  have leap := isLeapYear_next proper
  unfold dayOfMonth CalendarDay.daysInMonth CalendarDay.daysBeforeMonth date
  split
  next early =>
    dsimp only
    split_ifs <;> omega
  next late =>
    dsimp only
    split_ifs with february isLeap
    · omega
    · -- Only the leap day would be a 29th of February.
      have earlier : place.day ≠ 365 := fun last => isLeap (leap last)
      omega
    · omega
    · omega

theorem isValid_date (proper : place.Proper) : place.date.isValid := by
  have months := months_le proper
  have fits := dayOfMonth_le proper
  have month : 1 ≤ place.date.month ∧ place.date.month ≤ 12 ∧ place.date.day = place.dayOfMonth := by
    unfold date
    split <;> dsimp only <;> omega
  simp only [CalendarDay.isValid,Bool.and_eq_true,decide_eq_true_eq,month.2.2]
  exact ⟨⟨⟨month.1,month.2.1⟩,Nat.le_add_left 1 _⟩,fits⟩

/-- The years from 0 to 9999 are the days from the first of January 0 to the last of December 9999. -/
theorem year_date_iff (proper : place.Proper) :
    0 ≤ place.date.year ∧ place.date.year ≤ 9999 ↔ -719528 ≤ place.number ∧ place.number < 2932897 := by
  have inEra := yearOfEra_lt proper
  obtain ⟨begins,others,last⟩ := daysBefore_le proper
  have day := proper.day
  unfold date number CalendarDay.daysInEra CalendarDay.marchOfYearZero
  split
  next early =>
    have first : place.day < 306 := by unfold months at early; omega
    dsimp only
    omega
  next late =>
    have last : 306 ≤ place.day := by unfold months at late; omega
    dsimp only
    omega

theorem lt_daysInEra (proper : place.Proper) : ((place.daysBefore + place.day : Nat) : Int) < CalendarDay.daysInEra := by
  obtain ⟨century,cycle,year,day,_⟩ := proper
  unfold daysBefore CalendarDay.daysInEra
  omega

theorem century_of_day (proper : place.Proper) : min 3 ((place.daysBefore + place.day) / 36524) = place.century := by
  obtain ⟨century,cycle,year,day,leap⟩ := proper
  unfold daysBefore
  omega

theorem cycle_of_day (proper : place.Proper) :
    (place.cycle * 1461 + (place.year * 365 + place.day)) / 1461 = place.cycle := by
  have year := proper.year
  have day := proper.day
  omega

theorem year_of_day (proper : place.Proper) : min 3 ((place.year * 365 + place.day) / 365) = place.year := by
  have year := proper.year
  have day := proper.day
  have leap : place.day = 365 → place.year = 3 := fun last => (proper.leap last).1
  omega

theorem ofNumber_number (proper : place.Proper) : ofNumber place.number = place := by
  have inside := lt_daysInEra proper
  have since : place.number - CalendarDay.marchOfYearZero =
      (place.daysBefore + place.day : Nat) + CalendarDay.daysInEra * place.era := by
    unfold number
    rw [Int.mul_comm place.era]
    omega
  have dayOfEra : ((place.number - CalendarDay.marchOfYearZero) % CalendarDay.daysInEra).toNat =
      place.daysBefore + place.day := by
    rw [since,Int.add_mul_emod_self_left,Int.emod_eq_of_lt (by omega) inside,Int.toNat_natCast]
  have era : (place.number - CalendarDay.marchOfYearZero) / CalendarDay.daysInEra = place.era := by
    rw [since,Int.add_mul_ediv_left _ _ (by decide),Int.ediv_eq_zero_of_lt (by omega) inside,Int.zero_add]
  have afterCentury : place.daysBefore + place.day - place.century * 36524 =
      place.cycle * 1461 + (place.year * 365 + place.day) := by
    unfold daysBefore
    omega
  simp only [ofNumber,dayOfEra,era,century_of_day proper,afterCentury,cycle_of_day proper,year_of_day proper,
    Nat.add_sub_cancel_left]

/-- January and February belong to the year that began in March before them. -/
def ofDate (date : CalendarDay) : MarchDay :=
  let year := if date.month ≤ 2 then date.year - 1 else date.year
  let months := if date.month ≤ 2 then date.month + 9 else date.month - 3
  let yearOfEra := (year % 400).toNat
  ⟨year / 400,yearOfEra / 100,yearOfEra % 100 / 4,yearOfEra % 4,CalendarDay.daysBeforeMonth months + date.day - 1⟩

theorem yearOfEra_ofDate (date : CalendarDay) : (ofDate date).era * 400 + (ofDate date).yearOfEra =
    if date.month ≤ 2 then date.year - 1 else date.year := by
  unfold ofDate yearOfEra
  dsimp only
  omega

section
variable {date : CalendarDay}

/-- No month reaches into the next one. -/
theorem daysBefore_next (valid : date.isValid) :
    let months := if date.month ≤ 2 then date.month + 9 else date.month - 3
    CalendarDay.daysBeforeMonth months + date.day ≤ CalendarDay.daysBeforeMonth (months + 1) := by
  obtain ⟨year,month,day⟩ := date
  simp only [CalendarDay.isValid,CalendarDay.daysInMonth,Bool.and_eq_true,decide_eq_true_eq] at valid ⊢
  obtain ⟨⟨⟨first,last⟩,_⟩,ends⟩ := valid
  interval_cases month <;> simp [CalendarDay.daysBeforeMonth] at ends ⊢ <;> grind

theorem months_ofDate (valid : date.isValid) :
    (ofDate date).months = if date.month ≤ 2 then date.month + 9 else date.month - 3 := by
  have next := daysBefore_next valid
  simp only [CalendarDay.isValid,Bool.and_eq_true,decide_eq_true_eq] at valid
  unfold CalendarDay.daysBeforeMonth at next
  unfold months ofDate CalendarDay.daysBeforeMonth
  dsimp only at next ⊢
  omega

/-- Only a 29th of February comes after 365 days. -/
theorem day_ofDate (valid : date.isValid) : (ofDate date).day ≤ 365 ∧
    ((ofDate date).day = 365 → date.month = 2 ∧ CalendarDay.isLeapYear date.year) := by
  obtain ⟨year,month,day⟩ := date
  simp only [CalendarDay.isValid,CalendarDay.daysInMonth,Bool.and_eq_true,decide_eq_true_eq] at valid
  obtain ⟨⟨⟨first,last⟩,_⟩,ends⟩ := valid
  unfold ofDate CalendarDay.daysBeforeMonth
  dsimp only
  interval_cases month <;> simp at ends ⊢ <;> grind

theorem proper_ofDate (valid : date.isValid) : (ofDate date).Proper := by
  obtain ⟨inYear,last⟩ := day_ofDate valid
  have bound : ∀ year : Int, (year % 400).toNat < 400 := by omega
  have small := bound (if date.month ≤ 2 then date.year - 1 else date.year)
  refine ⟨?_,?_,?_,inYear,fun leapDay => ?_⟩
  · unfold ofDate
    dsimp only
    omega
  · unfold ofDate
    dsimp only
    omega
  · unfold ofDate
    dsimp only
    omega
  · obtain ⟨february,leap⟩ := last leapDay
    simp only [CalendarDay.isLeapYear,Bool.and_eq_true,Bool.or_eq_true,beq_iff_eq,bne_iff_ne] at leap
    unfold ofDate
    dsimp only
    rw [if_pos (by omega : date.month ≤ 2)]
    omega

theorem date_ofDate (valid : date.isValid) : (ofDate date).date = date := by
  have months := months_ofDate valid
  have year := yearOfEra_ofDate date
  simp only [CalendarDay.isValid,Bool.and_eq_true,decide_eq_true_eq] at valid
  have dayOfMonth : (ofDate date).dayOfMonth = date.day := by
    unfold dayOfMonth
    rw [months]
    unfold ofDate
    dsimp only
    omega
  unfold MarchDay.date
  rw [dayOfMonth,months,year]
  by_cases early : date.month ≤ 2
  · have late : ¬date.month + 9 < 10 := by omega
    simp only [if_pos early,if_neg late,Int.sub_add_cancel,Nat.add_sub_cancel]
  · have within : date.month - 3 < 10 := by omega
    have back : date.month - 3 + 3 = date.month := by omega
    simp only [if_neg early,if_pos within,back]

end
end MarchDay

namespace CalendarDay

theorem isValid_ofNumber (n : Int) : (ofNumber n).isValid := by
  rw [← MarchDay.date_ofNumber]
  exact MarchDay.isValid_date (MarchDay.proper_ofNumber n)

theorem number_ofNumber (n : Int) : (ofNumber n).number = n := by
  rw [← MarchDay.date_ofNumber,MarchDay.number_date (MarchDay.proper_ofNumber n),MarchDay.number_ofNumber]

theorem year_ofNumber_iff (n : Int) :
    0 ≤ (ofNumber n).year ∧ (ofNumber n).year ≤ 9999 ↔ -719528 ≤ n ∧ n < 2932897 := by
  rw [← MarchDay.date_ofNumber,MarchDay.year_date_iff (MarchDay.proper_ofNumber n),MarchDay.number_ofNumber]

theorem ofNumber_number {date : CalendarDay} (valid : date.isValid) : ofNumber date.number = date := by
  have proper := MarchDay.proper_ofDate valid
  have number : date.number = (MarchDay.ofDate date).number := by
    rw [← MarchDay.number_date proper,MarchDay.date_ofDate valid]
  rw [← MarchDay.date_ofNumber,number,MarchDay.ofNumber_number proper,MarchDay.date_ofDate valid]

end CalendarDay
end Jmap
