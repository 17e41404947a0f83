import Jmap.Json.Spelling
import Jmap.Proofs.Calendar
import Jmap.Timestamp.Written
import Mathlib.Algebra.Ring.Nat
import Mathlib.Tactic.SplitIfs

/-! Written times: what is printed with a year of four digits is scanned again, and what
a clock shows of an instant is that instant up to the fraction of a second. -/
namespace Jmap
open Json

namespace WrittenTime

theorem ofChar?_digitChar : ∀ digit : Digit, Digit.ofChar? (Nat.digitChar digit) = some digit := by decide

theorem bind_of_some {A B : Type} {first : Option A} {value : A} {next : A → Option B} {result : Option B}
    (taken : first = some value) (following : next value = result) : first >>= next = result := by
  rw [taken]
  exact following

theorem takeNumber_succ (count number : Nat) (cs : List Char) :
    takeNumber (count + 1) number cs = takeNumber count number cs >>= fun taken => takeNumber 1 taken.1 taken.2 := by
  induction count generalizing number cs with
  | zero => rfl
  | succ count ih =>
    cases cs with
    | nil => rfl
    | cons c cs =>
      rw [takeNumber,takeNumber]
      cases Digit.ofChar? c with
      | none => rfl
      | some digit => exact ih _ cs

theorem takeNumber_padded {width n : Nat} (number : Nat) (rest : List Char) (fits : n < 10 ^ width) :
    takeNumber width number (padded width n ++ rest) = some (number * 10 ^ width + n,rest) := by
  induction width generalizing n rest with
  | zero =>
    have zero : n = 0 := by simpa using fits
    simp [takeNumber,padded,zero]
  | succ width ih =>
    have inner : n / 10 < 10 ^ width := by
      rw [Nat.div_lt_iff_lt_mul (by decide),← Nat.pow_succ]
      exact fits
    have last : takeNumber 1 (number * 10 ^ width + n / 10) (Nat.digitChar (n % 10) :: rest) =
        some ((number * 10 ^ width + n / 10) * 10 + n % 10,rest) := by
      have read := ofChar?_digitChar ⟨n % 10,Nat.mod_lt n (by decide)⟩
      rw [takeNumber,read]
      rfl
    have total : (number * 10 ^ width + n / 10) * 10 + n % 10 = number * 10 ^ (width + 1) + n := by
      rw [Nat.pow_succ,← Nat.mul_assoc]
      omega
    -- Padding puts the last digit behind the others, so it is taken off by itself.
    rw [takeNumber_succ,padded,List.append_assoc,List.singleton_append,ih _ inner]
    exact last.trans (by rw [total])

theorem takeNumber_two {n : Nat} (rest : List Char) (fits : n < 100) :
    takeNumber 2 0 (padded 2 n ++ rest) = some (n,rest) := by
  rw [takeNumber_padded 0 rest fits,Nat.zero_mul,Nat.zero_add]

theorem takeNumber_year {year : Int} (rest : List Char) (inside : 0 ≤ year ∧ year ≤ 9999) :
    takeNumber 4 0 (yearText year ++ rest) = some (year.toNat,rest) := by
  have fits : year.toNat < 10 ^ 4 := by omega
  rw [yearText,if_pos inside,takeNumber_padded 0 rest fits,Nat.zero_mul,Nat.zero_add]

/-- Any other year starts with a sign. -/
theorem takeNumber_signed {year : Int} (rest : List Char) (outside : ¬(0 ≤ year ∧ year ≤ 9999)) :
    takeNumber 4 0 (yearText year ++ rest) = none := by
  rw [yearText,if_neg outside,List.cons_append,takeNumber]
  split <;> rfl

/-- As a clock could show it. -/
def IsClock : WrittenOffset → Prop
  | .zulu _ => True
  | .shifted _ hours minutes => hours < 24 ∧ minutes < 60

theorem takeOffset_offsetText {offset : WrittenOffset} (clock : IsClock offset) :
    takeOffset (offsetText offset) = some (offset,[]) := by
  cases offset with
  | zulu capital => cases capital <;> rfl
  | shifted sign hours minutes =>
    obtain ⟨inDay,inHour⟩ := clock
    have text : offsetText (.shifted sign hours minutes) = sign.char :: (padded 2 hours ++ ':' :: padded 2 minutes) := rfl
    have known : OffsetSign.ofChar? sign.char = some sign := by cases sign <;> decide
    have first := takeNumber_two (':' :: padded 2 minutes) (n := hours) (by omega)
    have second := takeNumber_two [] (n := minutes) (by omega)
    rw [List.append_nil] at second
    rw [text,takeOffset]
    · simp [known,first,takeChar,second,inDay,inHour]
    · cases sign <;> decide
    · cases sign <;> decide

theorem offsetText_stops (offset : WrittenOffset) :
    Stops isDigit (offsetText offset) ∧ Stops (· == '.') (offsetText offset) := by
  cases offset with
  | zulu capital => cases capital <;> exact ⟨Stops.cons (by decide),Stops.cons (by decide)⟩
  | shifted sign hours minutes => cases sign <;> exact ⟨Stops.cons (by decide),Stops.cons (by decide)⟩

theorem takeFraction_fractionText (digits : List Digit) {rest : List Char} (stops : Stops isDigit rest)
    (unpointed : Stops (· == '.') rest) : takeFraction (fractionText digits ++ rest) = some (digits,rest) := by
  cases digits with
  | nil =>
    rw [fractionText,List.isEmpty_nil,if_pos rfl,List.nil_append]
    unfold takeFraction
    split
    · exact absurd (unpointed '.' rfl) (by decide)
    · rfl
  | cons digit digits =>
    have text : fractionText (digit :: digits) ++ rest = '.' :: (Digits.print (digit :: digits) ++ rest) := rfl
    rw [text,takeFraction,Digits.scan_print _ stops]
    rfl

/-- What is scanned as it is printed: a clock reading that exists, in a year of four
digits, with an offset that a clock could show. -/
structure Printable (written : WrittenTime) : Prop where
  valid : written.reading.isValid
  year : 0 ≤ written.reading.date.year ∧ written.reading.date.year ≤ 9999
  separator : isSeparator written.separator
  offset : IsClock written.offset

theorem two_digits {reading : ClockReading} (valid : reading.isValid) : reading.date.month < 100 ∧
    reading.date.day < 100 ∧ reading.hour < 100 ∧ reading.minute < 100 ∧ reading.second < 100 := by
  have days : CalendarDay.daysInMonth reading.date.year reading.date.month ≤ 31 := by
    unfold CalendarDay.daysInMonth
    split_ifs <;> omega
  simp only [ClockReading.isValid,CalendarDay.isValid,Bool.and_eq_true,decide_eq_true_eq] at valid
  omega

theorem scan_print {written : WrittenTime} (printable : written.Printable) :
    scan written.print = some (written,[]) := by
  obtain ⟨⟨⟨year,month,day⟩,hour,minute,second⟩,separator,fraction,offset⟩ := written
  obtain ⟨valid,inYears,separates,clock⟩ := printable
  obtain ⟨month',day',hour',minute',second'⟩ := two_digits valid
  obtain ⟨stops,unpointed⟩ := offsetText_stops offset
  have unsigned : ((year.toNat : Nat) : Int) = year := Int.toNat_of_nonneg inYears.1
  have text : print ⟨⟨⟨year,month,day⟩,hour,minute,second⟩,separator,fraction,offset⟩ =
      yearText year ++ '-' :: (padded 2 month ++ '-' :: (padded 2 day ++ separator :: (padded 2 hour ++
        ':' :: (padded 2 minute ++ ':' :: (padded 2 second ++ (fractionText fraction ++ offsetText offset)))))) := by
    simp only [print,List.append_assoc,List.cons_append]
  have point (c : Char) (rest : List Char) : takeChar (· == c) (c :: rest) = some (c,rest) := if_pos (by simp)
  have separated (rest : List Char) : takeChar isSeparator (separator :: rest) = some (separator,rest) := if_pos separates
  rw [text,scan]
  refine bind_of_some (takeNumber_year _ inYears) (bind_of_some (point '-' _) ?_)
  refine bind_of_some (takeNumber_two _ month') (bind_of_some (point '-' _) ?_)
  refine bind_of_some (takeNumber_two _ day') (bind_of_some (separated _) ?_)
  refine bind_of_some (takeNumber_two _ hour') (bind_of_some (point ':' _) ?_)
  refine bind_of_some (takeNumber_two _ minute') (bind_of_some (point ':' _) ?_)
  refine bind_of_some (takeNumber_two _ second') ?_
  refine bind_of_some (takeFraction_fractionText fraction stops unpointed) (bind_of_some (takeOffset_offsetText clock) ?_)
  dsimp only
  rw [unsigned]
  exact if_pos valid

theorem ofText?_print {written : WrittenTime} (printable : written.Printable) :
    ofText? (String.ofList written.print) = some written := by
  simp [ofText?,scan_print printable]

theorem ofText?_signed {written : WrittenTime} (outside : ¬(0 ≤ written.reading.date.year ∧ written.reading.date.year ≤ 9999)) :
    ofText? (String.ofList written.print) = none := by
  have first : scan written.print = none := by
    unfold scan print
    simp only [List.append_assoc,takeNumber_signed _ outside]
    rfl
  simp [ofText?,first]

end WrittenTime

theorem Json.Digits.value_lt (digits : List Digit) : Digits.value digits < 10 ^ digits.length := by
  have pushed : ∀ start : Nat, digits.foldl (fun (value : Nat) digit => value * 10 + digit.val) start <
      (start + 1) * 10 ^ digits.length := by
    induction digits with
    | nil => simp
    | cons digit digits ih =>
      intro start
      have next : start * 10 + digit.val + 1 ≤ (start + 1) * 10 := by omega
      calc (digit :: digits).foldl (fun (value : Nat) digit => value * 10 + digit.val) start
          < (start * 10 + digit.val + 1) * 10 ^ digits.length := ih _
        _ ≤ (start + 1) * 10 * 10 ^ digits.length := Nat.mul_le_mul_right _ next
        _ = (start + 1) * 10 ^ (digit :: digits).length := by rw [List.length_cons,Nat.pow_succ',Nat.mul_assoc]
  simpa [Digits.value] using pushed 0

namespace Timestamp

/-- A leap second ends a minute of the clock. -/
def LeapsAtMinute (time : Timestamp) : Prop := nanosPerSecond ≤ time.nanos → (time.seconds + time.offset) % 60 = 59

theorem isValid_reading {time : Timestamp} (leaps : time.LeapsAtMinute) : time.reading.isValid := by
  have date := CalendarDay.isValid_ofNumber ((time.seconds + time.offset) / secondsPerDay)
  unfold LeapsAtMinute at leaps
  simp only [ClockReading.isValid,Bool.and_eq_true,decide_eq_true_eq]
  refine ⟨⟨⟨date,?_⟩,?_⟩,?_⟩
  · simp only [reading,secondsPerDay]
    omega
  · simp only [reading]
    omega
  · simp only [reading,secondsPerDay]
    split
    next leap =>
      have last := leaps leap
      omega
    next => omega

/-- Without the fraction of a second; a leap second stays one. -/
def wholeSecond (time : Timestamp) : Timestamp :=
  {time with nanos := if nanosPerSecond ≤ time.nanos then nanosPerSecond else 0}

theorem ofReading_reading {time : Timestamp} (leaps : time.LeapsAtMinute) :
    ofReading time.reading 0 time.offset = time.wholeSecond := by
  have day := CalendarDay.number_ofNumber ((time.seconds + time.offset) / secondsPerDay)
  unfold LeapsAtMinute at leaps
  unfold ofReading reading wholeSecond
  dsimp only
  rw [day]
  unfold secondsPerDay
  by_cases leap : nanosPerSecond ≤ time.nanos
  · have last := leaps leap
    have sixty : ((time.seconds + time.offset) % 86400).toNat % 60 + 1 = 60 := by omega
    simp only [if_pos leap,sixty,beq_self_eq_true,if_true,Nat.zero_add,Timestamp.mk.injEq,and_true]
    omega
  · have below : ((time.seconds + time.offset) % 86400).toNat % 60 ≠ 60 := by omega
    simp only [if_neg leap,Nat.add_zero,beq_iff_eq,below,if_false,Timestamp.mk.injEq,and_true]
    omega

end Timestamp

namespace WrittenOffset

theorem seconds_dvd (offset : WrittenOffset) : offset.seconds % 60 = 0 := by
  cases offset with
  | zulu => rfl
  | shifted sign hours minutes => cases sign <;> simp only [seconds] <;> omega

end WrittenOffset

namespace WrittenTime

theorem nanos_lt (written : WrittenTime) : written.nanos < Timestamp.nanosPerSecond := by
  have value := Digits.value_lt (written.fraction.take 9)
  rw [List.length_take] at value
  calc written.nanos
      < 10 ^ min 9 written.fraction.length * 10 ^ (9 - written.fraction.length) :=
        Nat.mul_lt_mul_of_pos_right value (Nat.pow_pos (by decide))
    _ = Timestamp.nanosPerSecond := by
      have all : min 9 written.fraction.length + (9 - written.fraction.length) = 9 := by omega
      rw [← Nat.pow_add,all]
      rfl

theorem leapsAtMinute_time (written : WrittenTime) :
    written.time.LeapsAtMinute ∧ written.time.inUtc.LeapsAtMinute := by
  have below := written.nanos_lt
  have minutes := written.offset.seconds_dvd
  have both : Timestamp.nanosPerSecond ≤ written.time.nanos → (written.time.seconds + written.time.offset) % 60 = 59 := by
    intro leap
    unfold time Timestamp.ofReading Timestamp.secondsPerDay at leap ⊢
    by_cases sixty : written.reading.second = 60
    · simp only [sixty,beq_self_eq_true,if_true]
      omega
    · simp only [beq_iff_eq,sixty,if_false] at leap
      omega
  refine ⟨both,fun leap => ?_⟩
  have last := both leap
  have same : written.time.offset = written.offset.seconds := rfl
  simp only [Timestamp.inUtc]
  omega

end WrittenTime
end Jmap
