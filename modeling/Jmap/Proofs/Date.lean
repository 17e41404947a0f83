import Jmap.Date
import Jmap.Proofs.Outcome
import Jmap.Proofs.Timestamp

/-! Dates in UTC: what is written for an instant is read as that instant, as long as its
year in UTC has four digits. -/
namespace Jmap
open Json Outcome

namespace Date

theorem written_of_parse {text : String} {date : Date} (parsed : parse text = .ok date) :
    ∃ written, WrittenTime.ofText? text = some written ∧ date = ⟨written.time⟩ := by
  unfold parse at parsed
  split at parsed
  next written scanned =>
    cases parsed
    exact ⟨written,scanned,rfl⟩
  next => contradiction

end Date

namespace UtcDate

/-- The first second of year 0 and the one after the last of year 9999, in UTC. -/
def firstSecond : Int := -62167219200
def endSecond : Int := 253402300800

theorem year_reading_iff (time : Timestamp) :
    0 ≤ time.inUtc.reading.date.year ∧ time.inUtc.reading.date.year ≤ 9999 ↔
      firstSecond ≤ time.seconds ∧ time.seconds < endSecond := by
  have day := CalendarDay.year_ofNumber_iff ((time.seconds + 0) / Timestamp.secondsPerDay)
  unfold Timestamp.inUtc Timestamp.reading firstSecond endSecond
  dsimp only
  rw [day]
  unfold Timestamp.secondsPerDay
  omega

theorem display_zulu (date : UtcDate) : date.display.toList.getLast? = some 'Z' := by
  have text : date.display = String.ofList date.time.inUtc.written.print := rfl
  have offset : WrittenTime.offsetText date.time.inUtc.written.offset = ['Z'] := rfl
  rw [text,String.toList_ofList,WrittenTime.print,offset,List.getLast?_concat]

theorem parse_display {date : UtcDate} (leaps : date.time.inUtc.LeapsAtMinute)
    (inside : firstSecond ≤ date.time.seconds ∧ date.time.seconds < endSecond) :
    parse date.display = .ok ⟨date.time.inUtc.wholeSecond⟩ := by
  have printable : date.time.inUtc.written.Printable :=
    ⟨Timestamp.isValid_reading leaps,(year_reading_iff date.time).mpr inside,rfl,trivial⟩
  have scanned : WrittenTime.ofText? date.display = some date.time.inUtc.written := WrittenTime.ofText?_print printable
  have whole : date.time.inUtc.written.nanos = 0 := Nat.zero_mul _
  have time : date.time.inUtc.written.time = date.time.inUtc.wholeSecond := by
    rw [WrittenTime.time,whole]
    exact Timestamp.ofReading_reading leaps
  have zulu : ¬(date.time.inUtc.written.offset.seconds ≠ 0 ∨ date.time.inUtc.written.offset.isUnknown) := by
    simp [Timestamp.written,Timestamp.inUtc,WrittenOffset.ofSeconds,WrittenOffset.seconds,WrittenOffset.isUnknown]
  rw [parse,scanned]
  dsimp only
  rw [if_neg zulu,time]

theorem parse_display_outside {date : UtcDate}
    (outside : ¬(firstSecond ≤ date.time.seconds ∧ date.time.seconds < endSecond)) :
    parse date.display = .error (.invalidDate (Text.quoted date.display)) := by
  have scanned : WrittenTime.ofText? date.display = none :=
    WrittenTime.ofText?_signed ((year_reading_iff date.time).not.mpr outside)
  rw [parse,scanned]

/-- A date that was parsed is written in UTC with a `Z`. That text is parsed to the same
instant without its fraction, or refused where the offset has led out of the years that
can be parsed. -/
theorem utc_of_parsed_date (text : String) (date : Date) (parsed : Date.parse text = .ok date) :
    let utc := ofDate date
    encode utc = .ok (.ofString utc.display) ∧ utc.display.toList.getLast? = some 'Z' ∧
      (firstSecond ≤ date.time.seconds ∧ date.time.seconds < endSecond →
        parse utc.display = .ok ⟨date.time.inUtc.wholeSecond⟩) ∧
      (¬(firstSecond ≤ date.time.seconds ∧ date.time.seconds < endSecond) →
        parse utc.display = .error (.invalidDate (Text.quoted utc.display))) := by
  intro utc
  obtain ⟨written,_,rfl⟩ := Date.written_of_parse parsed
  exact ⟨rfl,display_zulu utc,parse_display written.leapsAtMinute_time.2,parse_display_outside⟩

theorem utc_of_parsed_date_leap :
    let text := "2016-12-31T15:59:60.25-08:00"
    ∃ date again, Date.parse text = .ok date ∧ (ofDate date).display = "2016-12-31T23:59:60Z" ∧
      parse "2016-12-31T23:59:60Z" = .ok again ∧ again.time = ⟨1483228799,1000000000,0⟩ ∧ date.time.seconds = 1483228799 := by
  intro text
  have checked : (Date.parse text).toOption.any fun date =>
      date.time = ⟨1483228799,1250000000,-28800⟩ && (ofDate date).display = "2016-12-31T23:59:60Z" := by decide +kernel
  obtain ⟨date,parsed,shown⟩ := exists_ok_of_any checked
  simp only [Bool.and_eq_true,decide_eq_true_eq] at shown
  obtain ⟨time,display⟩ := shown
  obtain ⟨_,_,rereads,_⟩ := utc_of_parsed_date text date parsed
  rw [time,display] at rereads
  exact ⟨date,_,parsed,display,rereads (by decide),by decide,by rw [time]⟩

theorem refused_of_checked {text shown : String} (checked : (Date.parse text).toOption.any fun date =>
    (ofDate date).display = shown && (parse shown).toOption.isNone) :
    ∃ date, Date.parse text = .ok date ∧ (ofDate date).display = shown ∧ ∀ again, parse shown ≠ .ok again := by
  obtain ⟨date,parsed,found⟩ := exists_ok_of_any checked
  simp only [Bool.and_eq_true,decide_eq_true_eq] at found
  refine ⟨date,parsed,found.1,fun again accepted => ?_⟩
  rw [accepted] at found
  exact Bool.noConfusion found.2

/-- Half an hour before year 0 in UTC it is year 0 further east, and in the first hour
of year 10000 it is still 9999 further west. -/
theorem utc_leaves_the_years :
    (∃ date, Date.parse "0000-01-01T00:30:00+01:00" = .ok date ∧ (ofDate date).display = "-0001-12-31T23:30:00Z" ∧
      ∀ again, parse "-0001-12-31T23:30:00Z" ≠ .ok again) ∧
    ∃ date, Date.parse "9999-12-31T23:59:59-01:00" = .ok date ∧ (ofDate date).display = "+10000-01-01T00:59:59Z" ∧
      ∀ again, parse "+10000-01-01T00:59:59Z" ≠ .ok again :=
  ⟨refused_of_checked (by decide +kernel),refused_of_checked (by decide +kernel)⟩

end UtcDate
end Jmap
