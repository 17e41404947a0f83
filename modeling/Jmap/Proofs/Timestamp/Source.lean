import Jmap.Proofs.Json.Decimals
import Jmap.Proofs.Timestamp

/-! Scanning a written time loses nothing: the text is the time printed, followed by what
the scan left. So the texts of times are exactly what is printed of a clock reading that
exists, with a year of four digits and an offset that a clock could show. -/
namespace Jmap
open Json

theorem OffsetSign.char_of_ofChar? {c : Char} {sign : OffsetSign} (read : ofChar? c = some sign) : sign.char = c := by
  unfold ofChar? at read
  split at read
  next same => cases read; exact same.symm
  next =>
    split at read
    next same => cases read; exact same.symm
    next =>
      split at read
      next same => cases read; exact same.symm
      next => contradiction

namespace WrittenTime

theorem takeNumber_one {number n : Nat} {cs rest : List Char} (taken : takeNumber 1 number cs = some (n,rest)) :
    ∃ digit : Digit, n = number * 10 + digit.val ∧ cs = Nat.digitChar digit :: rest := by
  cases cs with
  | nil => contradiction
  | cons c cs =>
    obtain ⟨digit,read,same⟩ := Option.bind_eq_some_iff.mp taken
    cases same
    refine ⟨digit,rfl,?_⟩
    rw [← Digit.char_eq_digitChar,Digit.char_of_ofChar? read]

theorem takeNumber_source {count number n : Nat} {cs rest : List Char} (taken : takeNumber count number cs = some (n,rest)) :
    ∃ m, m < 10 ^ count ∧ n = number * 10 ^ count + m ∧ cs = padded count m ++ rest := by
  induction count generalizing n rest with
  | zero =>
    cases taken
    exact ⟨0,by simp,by simp,rfl⟩
  | succ count ih =>
    rw [takeNumber_succ] at taken
    obtain ⟨⟨front,behind⟩,first,last⟩ := Option.bind_eq_some_iff.mp taken
    obtain ⟨m,fits,rfl,rfl⟩ := ih first
    obtain ⟨digit,rfl,same⟩ := takeNumber_one last
    dsimp only at same
    subst same
    have bound := digit.isLt
    have power : 10 ^ (count + 1) = 10 ^ count * 10 := Nat.pow_succ ..
    refine ⟨m * 10 + digit.val,by omega,?_,?_⟩
    · rw [power,← Nat.mul_assoc]
      omega
    · have tens : (m * 10 + digit.val) / 10 = m := by omega
      have unit : (m * 10 + digit.val) % 10 = digit.val := by omega
      rw [padded,tens,unit,List.append_assoc,List.singleton_append]

theorem takeNumber_zero_source {count n : Nat} {cs rest : List Char} (taken : takeNumber count 0 cs = some (n,rest)) :
    n < 10 ^ count ∧ cs = padded count n ++ rest := by
  obtain ⟨m,fits,same,source⟩ := takeNumber_source taken
  rw [Nat.zero_mul,Nat.zero_add] at same
  exact same ▸ ⟨fits,source⟩

theorem takeChar_source {allowed : Char → Bool} {c : Char} {cs rest : List Char} (taken : takeChar allowed cs = some (c,rest)) :
    allowed c ∧ cs = c :: rest := by
  cases cs with
  | nil => contradiction
  | cons first cs =>
    rw [takeChar] at taken
    split at taken
    next fine =>
      cases taken
      exact ⟨fine,rfl⟩
    next => contradiction

theorem takeChar_eq_source {point c : Char} {cs rest : List Char} (taken : takeChar (· == point) cs = some (c,rest)) :
    cs = point :: rest := by
  obtain ⟨same,source⟩ := takeChar_source taken
  rw [source,beq_iff_eq.mp same]

theorem takeFraction_source {digits : List Digit} {cs rest : List Char} (taken : takeFraction cs = some (digits,rest)) :
    cs = fractionText digits ++ rest := by
  unfold takeFraction at taken
  split at taken
  next tail =>
    dsimp only at taken
    split at taken
    next => contradiction
    next some =>
      cases taken
      rw [fractionText,if_neg some,List.cons_append,Digits.scan_source]
  next =>
    cases taken
    rfl

theorem takeOffset_source {offset : WrittenOffset} {cs rest : List Char} (taken : takeOffset cs = some (offset,rest)) :
    IsClock offset ∧ cs = offsetText offset ++ rest := by
  unfold takeOffset at taken
  split at taken
  next => contradiction
  next => cases taken; exact ⟨trivial,rfl⟩
  next => cases taken; exact ⟨trivial,rfl⟩
  next c tail _ _ =>
    simp only [Option.bind_eq_bind,Option.bind_eq_some_iff] at taken
    obtain ⟨sign,signed,⟨hours,_⟩,hoursTaken,⟨_,_⟩,colon,⟨minutes,_⟩,minutesTaken,same⟩ := taken
    dsimp only at colon minutesTaken same
    split at same
    next clock =>
      cases same
      obtain ⟨_,rfl⟩ := takeNumber_zero_source hoursTaken
      cases takeChar_eq_source colon
      obtain ⟨_,rfl⟩ := takeNumber_zero_source minutesTaken
      refine ⟨clock,?_⟩
      rw [← OffsetSign.char_of_ofChar? signed]
      simp [offsetText]
    next => contradiction

theorem scan_source {written : WrittenTime} {cs rest : List Char} (scanned : scan cs = some (written,rest)) :
    written.Printable ∧ cs = written.print ++ rest := by
  unfold scan at scanned
  obtain ⟨⟨year,_⟩,yearTaken,scanned⟩ := Option.bind_eq_some_iff.mp scanned
  obtain ⟨⟨_,_⟩,yearEnd,scanned⟩ := Option.bind_eq_some_iff.mp scanned
  obtain ⟨⟨month,_⟩,monthTaken,scanned⟩ := Option.bind_eq_some_iff.mp scanned
  obtain ⟨⟨_,_⟩,monthEnd,scanned⟩ := Option.bind_eq_some_iff.mp scanned
  obtain ⟨⟨day,_⟩,dayTaken,scanned⟩ := Option.bind_eq_some_iff.mp scanned
  obtain ⟨⟨separator,_⟩,separated,scanned⟩ := Option.bind_eq_some_iff.mp scanned
  obtain ⟨⟨hour,_⟩,hourTaken,scanned⟩ := Option.bind_eq_some_iff.mp scanned
  obtain ⟨⟨_,_⟩,hourEnd,scanned⟩ := Option.bind_eq_some_iff.mp scanned
  obtain ⟨⟨minute,_⟩,minuteTaken,scanned⟩ := Option.bind_eq_some_iff.mp scanned
  obtain ⟨⟨_,_⟩,minuteEnd,scanned⟩ := Option.bind_eq_some_iff.mp scanned
  obtain ⟨⟨seconds,_⟩,secondTaken,scanned⟩ := Option.bind_eq_some_iff.mp scanned
  obtain ⟨⟨fraction,_⟩,fractionTaken,scanned⟩ := Option.bind_eq_some_iff.mp scanned
  obtain ⟨⟨offset,_⟩,offsetTaken,scanned⟩ := Option.bind_eq_some_iff.mp scanned
  dsimp only at offsetTaken scanned
  split at scanned
  next valid =>
    cases scanned
    obtain ⟨years,rfl⟩ := takeNumber_zero_source yearTaken
    cases takeChar_eq_source yearEnd
    obtain ⟨_,rfl⟩ := takeNumber_zero_source monthTaken
    cases takeChar_eq_source monthEnd
    obtain ⟨_,rfl⟩ := takeNumber_zero_source dayTaken
    obtain ⟨separates,rfl⟩ := takeChar_source separated
    obtain ⟨_,rfl⟩ := takeNumber_zero_source hourTaken
    cases takeChar_eq_source hourEnd
    obtain ⟨_,rfl⟩ := takeNumber_zero_source minuteTaken
    cases takeChar_eq_source minuteEnd
    obtain ⟨_,rfl⟩ := takeNumber_zero_source secondTaken
    cases takeFraction_source fractionTaken
    obtain ⟨clock,rfl⟩ := takeOffset_source offsetTaken
    have inYears : 0 ≤ (year : Int) ∧ (year : Int) ≤ 9999 := by omega
    refine ⟨⟨valid,inYears,separates,clock⟩,?_⟩
    have digits : yearText (year : Int) = padded 4 year := by rw [yearText,if_pos inYears,Int.toNat_natCast]
    simp [print,digits]
  next => contradiction

/-- The grammar of written times: no other text is read, and none in two ways. -/
theorem ofText?_eq_some_iff {text : String} {written : WrittenTime} :
    ofText? text = some written ↔ written.Printable ∧ text = String.ofList written.print := by
  constructor
  · intro read
    obtain ⟨⟨scanned,rest⟩,source,same⟩ := Option.bind_eq_some_iff.mp read
    dsimp only at same
    split at same
    next empty =>
      cases same
      obtain ⟨printable,text⟩ := scan_source source
      rw [List.isEmpty_iff.mp empty,List.append_nil] at text
      exact ⟨printable,by rw [← text,String.ofList_toList]⟩
    next => contradiction
  · rintro ⟨printable,rfl⟩
    exact ofText?_print printable

end WrittenTime
end Jmap
