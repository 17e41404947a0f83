import Jmap.Date
import Jmap.Proofs.Outcome
import Jmap.Proofs.Timestamp.Source

/-! The offsets with which a date in UTC can be written, read off the end of its text. A
zero offset behind a hyphen says that the offset is not known and is refused; behind the
mathematical minus sign it is accepted as the one behind a plus sign is. -/
namespace Jmap
open Outcome

namespace WrittenTime

theorem offsetText_inj {left right : WrittenOffset} (leftClock : IsClock left) (rightClock : IsClock right)
    (same : offsetText left = offsetText right) : left = right := by
  have scanned := takeOffset_offsetText leftClock
  rw [same,takeOffset_offsetText rightClock] at scanned
  cases scanned
  rfl

theorem getLast?_offsetText (offset : WrittenOffset) :
    (offsetText offset).getLast? = some (match offset with
      | .zulu capital => if capital then 'Z' else 'z'
      | .shifted _ _ minutes => Nat.digitChar (minutes % 10)) := by
  cases offset with
  | zulu => rfl
  | shifted sign hours minutes => simp [offsetText,padded]

theorem digitChar_ne_zulu (n : Nat) (capital : Bool) : Nat.digitChar (n % 10) ≠ if capital then 'Z' else 'z' := by
  have digits : ∀ (digit : Fin 10) (capital : Bool), Nat.digitChar digit ≠ if capital then 'Z' else 'z' := by decide
  exact digits ⟨n % 10,Nat.mod_lt n (by decide)⟩ capital

/-- No text ends in two offsets: a letter is no digit, and behind a sign all offsets are of one length. -/
theorem eq_of_suffix {left right : WrittenOffset} {front : List Char} (leftClock : IsClock left)
    (rightClock : IsClock right) (ends : offsetText left <:+ front ++ offsetText right) : left = right := by
  obtain ⟨before,same⟩ := ends
  have last : (offsetText left).getLast? = (offsetText right).getLast? := by
    have whole := congrArg List.getLast? same
    rwa [List.getLast?_append,List.getLast?_append,getLast?_offsetText,getLast?_offsetText,Option.some_or,Option.some_or,
      ← getLast?_offsetText,← getLast?_offsetText] at whole
  rw [getLast?_offsetText,getLast?_offsetText,Option.some.injEq] at last
  cases left with
  | zulu capital =>
    cases right with
    | zulu other => exact offsetText_inj leftClock rightClock (List.append_inj' same rfl).2
    | shifted sign hours minutes => exact absurd last.symm (digitChar_ne_zulu minutes capital)
  | shifted sign hours minutes =>
    cases right with
    | zulu capital => exact absurd last (digitChar_ne_zulu minutes capital)
    | shifted => exact offsetText_inj leftClock rightClock (List.append_inj' same (by simp [offsetText,padded])).2

theorem suffix_print_iff {written : WrittenTime} (clock : IsClock written.offset) {offset : WrittenOffset}
    (other : IsClock offset) : offsetText offset <:+ written.print ↔ written.offset = offset := by
  constructor
  · exact fun ends => (eq_of_suffix other clock ends).symm
  · rintro rfl
    exact List.suffix_append ..

end WrittenTime

namespace WrittenOffset

/-- Zero, and known to be. -/
def IsUtc (offset : WrittenOffset) : Prop := ¬(offset.seconds ≠ 0 ∨ offset.isUnknown)

theorem isUtc_iff {offset : WrittenOffset} : offset.IsUtc ↔ offset = .zulu true ∨ offset = .zulu false ∨
    offset = .shifted .plus 0 0 ∨ offset = .shifted .minus 0 0 := by
  cases offset with
  | zulu capital => cases capital <;> simp [IsUtc,seconds,isUnknown]
  | shifted sign hours minutes =>
    have zero : hours * 3600 + minutes * 60 = 0 ↔ hours = 0 ∧ minutes = 0 := by omega
    cases sign <;> simp [IsUtc,seconds,isUnknown] <;> omega

end WrittenOffset

namespace UtcDate
open WrittenTime (offsetText suffix_print_iff ofText?_eq_some_iff)

/-- The text ends in `Z`, in `z`, or in a zero offset behind a plus or a minus sign, the hyphen not being one. -/
def StatesUtc (text : String) : Prop :=
  ['Z'] <:+ text.toList ∨ ['z'] <:+ text.toList ∨ "+00:00".toList <:+ text.toList ∨ "\u221200:00".toList <:+ text.toList

theorem statesUtc_iff {text : String} {written : WrittenTime} (scanned : WrittenTime.ofText? text = some written) :
    StatesUtc text ↔ written.offset.IsUtc := by
  obtain ⟨printable,rfl⟩ := ofText?_eq_some_iff.mp scanned
  have zero : WrittenTime.IsClock (.shifted .plus 0 0) := ⟨by decide,by decide⟩
  have stated (offset : WrittenOffset) (clock : WrittenTime.IsClock offset) :
      offsetText offset <:+ (String.ofList written.print).toList ↔ written.offset = offset := by
    rw [String.toList_ofList]
    exact suffix_print_iff printable.offset clock
  rw [WrittenOffset.isUtc_iff,← stated (.zulu true) trivial,← stated (.zulu false) trivial,
    ← stated (.shifted .plus 0 0) zero,← stated (.shifted .minus 0 0) zero]
  rfl

/-- Of the texts that are dates those are dates in UTC that state it, with the same instant. -/
theorem parse_of_offset (text : String) :
    (∀ date, parse text = .ok date ↔ Date.parse text = .ok date.toDate ∧ StatesUtc text) ∧
      (parse text = .error (.notUtc text) ↔ (∃ date, Date.parse text = .ok date) ∧ ¬StatesUtc text) ∧
      (parse text = .error (.invalidDate (Text.quoted text)) ↔ ∀ date, Date.parse text ≠ .ok date) := by
  unfold parse Date.parse
  cases scanned : WrittenTime.ofText? text with
  | none => simp
  | some written =>
    dsimp only
    rw [statesUtc_iff scanned,WrittenOffset.IsUtc]
    by_cases refused : written.offset.seconds ≠ 0 ∨ written.offset.isUnknown
    · rw [if_pos refused]
      simp [refused]
    · rw [if_neg refused]
      refine ⟨fun date => ?_,by simp [refused],by simp⟩
      obtain ⟨time⟩ := date
      simp [refused,toDate]

/-- The unknown offset passes for a known one if its minus is not written as a hyphen. -/
theorem parse_minus_zero :
    let text := "2014-10-30T14:12:00\u221200:00"
    ∃ date, parse text = .ok date ∧ Date.parse text = .ok date.toDate ∧
      ¬['Z'] <:+ text.toList ∧ ¬['z'] <:+ text.toList ∧ ¬"+00:00".toList <:+ text.toList := by
  intro text
  have checked : (parse text).toOption.any fun date => (Date.parse text).toOption = some date.toDate := by decide +kernel
  obtain ⟨date,parsed,same⟩ := exists_ok_of_any checked
  rw [decide_eq_true_eq,toOption_eq_some_iff] at same
  exact ⟨date,parsed,same,by decide,by decide,by decide⟩

end UtcDate
end Jmap
