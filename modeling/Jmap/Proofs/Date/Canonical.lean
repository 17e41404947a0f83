import Jmap.Proofs.Date
import Jmap.Proofs.Timestamp.Source

/-! The text that stands for all spellings of a date: the calendar and the clock of the
date as they were written, and their offset. An instant is kept in UTC, so what a clock
showed is found again from it. -/
namespace Jmap
open Json Outcome

namespace Timestamp

theorem reading_of_clock {clock : Nat} (inDay : clock < 86400) (day : Int) (nanos : Nat) (offset : Int) :
    reading ⟨day * secondsPerDay + clock - offset,nanos,offset⟩ =
      ⟨.ofNumber day,clock / 3600,clock % 3600 / 60,clock % 60 + if nanosPerSecond ≤ nanos then 1 else 0⟩ := by
  have local' : day * secondsPerDay + clock - offset + offset = clock + secondsPerDay * day := by
    rw [Int.mul_comm day]
    omega
  have below : (clock : Int) < secondsPerDay := by
    unfold secondsPerDay
    omega
  have number : (day * secondsPerDay + clock - offset + offset) / secondsPerDay = day := by
    rw [local',Int.add_mul_ediv_left _ _ (by decide),Int.ediv_eq_zero_of_lt (Int.natCast_nonneg clock) below,Int.zero_add]
  have second : ((day * secondsPerDay + clock - offset + offset) % secondsPerDay).toNat = clock := by
    rw [local',Int.add_mul_emod_self_left,Int.emod_eq_of_lt (Int.natCast_nonneg clock) below,Int.toNat_natCast]
  simp only [reading,number,second]

theorem reading_ofReading {shown : ClockReading} (valid : shown.isValid) {nanos : Nat} (below : nanos < nanosPerSecond)
    (offset : Int) : (ofReading shown nanos offset).reading = shown := by
  obtain ⟨date,hour,minute,second⟩ := shown
  simp only [ClockReading.isValid,Bool.and_eq_true,decide_eq_true_eq] at valid
  obtain ⟨⟨⟨dated,inDay⟩,inHour⟩,inMinute⟩ := valid
  unfold ofReading
  by_cases leap : second = 60
  · -- Second 60 is kept as second 59 with a thousand million nanoseconds, from which it is told again.
    have late : nanosPerSecond ≤ nanos + nanosPerSecond := Nat.le_add_left ..
    simp only [leap,beq_self_eq_true,if_true]
    rw [reading_of_clock (by omega),CalendarDay.ofNumber_number dated,if_pos late]
    simp only [ClockReading.mk.injEq,true_and]
    omega
  · have early : ¬nanosPerSecond ≤ nanos := by omega
    simp only [beq_iff_eq,leap,if_false]
    rw [reading_of_clock (by omega),CalendarDay.ofNumber_number dated,if_neg early]
    simp only [ClockReading.mk.injEq,true_and]
    omega

end Timestamp

namespace WrittenOffset

/-- Every zero offset is a capital `Z`, and every other minus sign a hyphen. -/
def canonical : WrittenOffset → WrittenOffset
  | .zulu _ => .zulu true
  | .shifted sign hours minutes =>
    if hours = 0 ∧ minutes = 0 then .zulu true
    else .shifted (if sign = .plus then .plus else .hyphen) hours minutes

theorem seconds_canonical (offset : WrittenOffset) : offset.canonical.seconds = offset.seconds := by
  cases offset with
  | zulu => rfl
  | shifted sign hours minutes =>
    rw [canonical]
    split
    next zero =>
      obtain ⟨rfl,rfl⟩ := zero
      cases sign <;> rfl
    next => cases sign <;> rfl

theorem seconds_eq_zero_iff {offset : WrittenOffset} : offset.seconds = 0 ↔ offset.canonical = .zulu true := by
  cases offset with
  | zulu => simp [seconds,canonical]
  | shifted sign hours minutes => cases sign <;> simp [seconds,canonical] <;> omega

theorem isClock_canonical {offset : WrittenOffset} (clock : WrittenTime.IsClock offset) :
    WrittenTime.IsClock offset.canonical := by
  cases offset with
  | zulu => trivial
  | shifted sign hours minutes =>
    rw [canonical]
    split
    · trivial
    · exact clock

theorem ofSeconds_seconds {offset : WrittenOffset} (clock : WrittenTime.IsClock offset) :
    ofSeconds offset.seconds = offset.canonical := by
  by_cases zero : offset.seconds = 0
  · simp only [ofSeconds,if_pos zero,seconds_eq_zero_iff.mp zero]
  · simp only [ofSeconds,if_neg zero]
    cases offset with
    | zulu => exact absurd rfl zero
    | shifted sign hours minutes =>
      obtain ⟨_,inHour⟩ := clock
      have size : (shifted sign hours minutes).seconds.natAbs = hours * 3600 + minutes * 60 := by
        cases sign <;> simp only [seconds] <;> omega
      have shown : ¬(hours = 0 ∧ minutes = 0) := by
        rintro ⟨rfl,rfl⟩
        omega
      have signed : (shifted sign hours minutes).seconds < 0 ↔ sign ≠ .plus := by
        cases sign <;> simp [seconds] <;> omega
      -- The offset of a clock is a number of whole minutes, so nothing is rounded.
      have rounded : (hours * 3600 + minutes * 60 + 30) / 60 = hours * 60 + minutes := by omega
      have wholeHours : (hours * 60 + minutes) / 60 = hours := by omega
      have wholeMinutes : (hours * 60 + minutes) % 60 = minutes := by omega
      simp only [canonical,if_neg shown,size,rounded,wholeHours,wholeMinutes,signed,ne_eq,ite_not]

end WrittenOffset

namespace WrittenTime

/-- The same clock reading and offset, with a capital `T` and without a fraction. -/
def canonical (written : WrittenTime) : WrittenTime := ⟨written.reading,'T',[],written.offset.canonical⟩

theorem printable_canonical {written : WrittenTime} (printable : written.Printable) : written.canonical.Printable :=
  ⟨printable.valid,printable.year,rfl,WrittenOffset.isClock_canonical printable.offset⟩

theorem canonical_canonical (written : WrittenTime) : written.canonical.canonical = written.canonical := by
  obtain ⟨reading,separator,fraction,offset⟩ := written
  cases offset with
  | zulu => rfl
  | shifted sign hours minutes =>
    by_cases zero : hours = 0 ∧ minutes = 0
    · simp [canonical,WrittenOffset.canonical,zero]
    · cases sign <;> simp [canonical,WrittenOffset.canonical,zero]

theorem written_time {written : WrittenTime} (printable : written.Printable) : written.time.written = written.canonical := by
  have reading : written.time.reading = written.reading :=
    Timestamp.reading_ofReading printable.valid written.nanos_lt written.offset.seconds
  have offset : WrittenOffset.ofSeconds written.time.offset = written.offset.canonical :=
    WrittenOffset.ofSeconds_seconds printable.offset
  rw [Timestamp.written,reading,offset,canonical]

theorem time_canonical {written : WrittenTime} (printable : written.Printable) :
    written.canonical.time = written.time.wholeSecond := by
  have reading : written.time.reading = written.reading :=
    Timestamp.reading_ofReading printable.valid written.nanos_lt written.offset.seconds
  have whole := Timestamp.ofReading_reading written.leapsAtMinute_time.1
  have offset : written.canonical.offset.seconds = written.time.offset := written.offset.seconds_canonical
  have nanos : written.canonical.nanos = 0 := Nat.zero_mul _
  rw [reading] at whole
  rw [time,nanos,offset]
  exact whole

end WrittenTime

namespace Date

/-- A date is written with the calendar, the clock and the offset that its text shows, in the
one spelling that all of its spellings share. That text is parsed to the same date
without its fraction of a second, which is written in the same way. -/
theorem display_of_parsed (text : String) (date : Date) (parsed : parse text = .ok date) :
    ∃ written : WrittenTime, written.Printable ∧ text = String.ofList written.print ∧
      encode date = .ok (.ofString date.display) ∧ date.display = String.ofList written.canonical.print ∧
      written.canonical.offset.seconds = written.offset.seconds ∧
      (written.offset.seconds = 0 ↔ written.canonical.offset = .zulu true) ∧
      parse date.display = .ok ⟨date.time.wholeSecond⟩ ∧ display ⟨date.time.wholeSecond⟩ = date.display := by
  obtain ⟨written,scanned,rfl⟩ := written_of_parse parsed
  obtain ⟨printable,spelled⟩ := WrittenTime.ofText?_eq_some_iff.mp scanned
  have shown : display ⟨written.time⟩ = String.ofList written.canonical.print := by
    rw [display,Timestamp.text,WrittenTime.written_time printable]
  have again := WrittenTime.printable_canonical printable
  have whole := WrittenTime.time_canonical printable
  refine ⟨written,printable,spelled,rfl,shown,written.offset.seconds_canonical,WrittenOffset.seconds_eq_zero_iff,?_,?_⟩
  · rw [shown,parse,WrittenTime.ofText?_print again]
    exact congrArg (fun time => Except.ok (Date.mk time)) whole
  · rw [shown,display,Timestamp.text,← whole,WrittenTime.written_time again,WrittenTime.canonical_canonical]

/-- A leap second whose fraction, separator and minus sign are given up. -/
theorem display_of_parsed_leap :
    let text := "2016-02-29 15:59:60.25\u221208:30"
    let shown := "2016-02-29T15:59:60-08:30"
    ∃ date, parse text = .ok date ∧ date.display = shown ∧ date.time = ⟨1456792199,1250000000,-30600⟩ ∧
      parse shown = .ok ⟨⟨1456792199,1000000000,-30600⟩⟩ := by
  intro text shown
  have checked : (parse text).toOption.any fun date =>
      date.time = ⟨1456792199,1250000000,-30600⟩ && date.display = shown := by decide +kernel
  obtain ⟨date,parsed,found⟩ := exists_ok_of_any checked
  simp only [Bool.and_eq_true,decide_eq_true_eq] at found
  obtain ⟨time,display⟩ := found
  obtain ⟨_,_,_,_,_,_,_,rereads,_⟩ := display_of_parsed text date parsed
  rw [time,display] at rereads
  exact ⟨date,parsed,display,time,rereads⟩

end Date
end Jmap
