import Jmap.Proofs.Json.Source
import Mathlib.Tactic.SplitIfs

/-! Digits without leading zeros and the numbers they write: each number has one such
spelling, the decimal one. -/
namespace Jmap.Json

theorem Digit.char_eq_digitChar : ∀ digit : Digit, digit.char = Nat.digitChar digit := by decide

namespace Digits

/-- Digits behind a number that is not zero are digits of a larger number. -/
theorem toDigits_append_print {start : Nat} (positive : 0 < start) (digits : List Digit) :
    Nat.toDigits 10 start ++ print digits =
      Nat.toDigits 10 (digits.foldl (fun (value : Nat) digit => value * 10 + digit.val) start) := by
  induction digits generalizing start with
  | nil => exact List.append_nil _
  | cons digit digits ih =>
    have next : Nat.toDigits 10 start ++ [digit.char] = Nat.toDigits 10 (start * 10 + digit.val) := by
      rw [Digit.char_eq_digitChar,← Nat.toDigits_of_lt_base digit.isLt,
        Nat.toDigits_append_toDigits (by decide) positive digit.isLt,Nat.mul_comm]
    have following := @ih (start * 10 + digit.val) (by omega)
    rw [← next,List.append_assoc] at following
    exact following

theorem value_pushNat {fuel n : Nat} (tail : List Digit) (enough : n < fuel) :
    value (pushNat fuel n tail) = tail.foldl (fun (value : Nat) digit => value * 10 + digit.val) n := by
  induction fuel generalizing n tail with
  | zero => omega
  | succ fuel ih =>
    have last : (Fin.ofNat 10 n).val = n % 10 := rfl
    rw [pushNat]
    split_ifs with single
    · rw [value,List.foldl_cons,last]
      congr 1
      omega
    · rw [ih _ (by omega),List.foldl_cons,last]
      congr 1
      omega

theorem value_ofNat (n : Nat) : value (ofNat n) = n := value_pushNat [] n.lt_succ_self

end Digits

namespace Whole

theorem print_eq_toDigits (whole : Whole) :
    Digits.print whole.digits.toList = Nat.toDigits 10 (Digits.value whole.digits.toList) := by
  obtain ⟨⟨first,rest⟩,noLeadingZero⟩ := whole
  have front : Nat.toDigits 10 first.val = [first.char] := by
    rw [Digit.char_eq_digitChar,Nat.toDigits_of_lt_base first.isLt]
  have start : 0 * 10 + first.val = first.val := by omega
  simp only [SomeDigits.toList,Digits.value,List.foldl_cons,start]
  by_cases zero : first = .zero
  · have single : rest = [] := noLeadingZero zero
    rw [single,List.foldl_nil,front]
    rfl
  · have positive : first.val ≠ 0 := fun none => zero (Fin.ext none)
    rw [← Digits.toDigits_append_print (by omega),front]
    rfl

theorem value_ofDigits (digits : List Digit) :
    Digits.value (ofDigits digits).digits.toList = Digits.value digits := by
  induction digits with
  | nil => rfl
  | cons first rest ih =>
    rw [ofDigits]
    split_ifs with leading
    · rw [ih,leading]
      rfl
    · rfl

theorem exists_value (n : Nat) : ∃ whole : Whole, Digits.value whole.digits.toList = n :=
  ⟨ofDigits (Digits.ofNat n),(value_ofDigits _).trans (Digits.value_ofNat n)⟩

end Whole

theorem NumberLiteral.scanWhole_toDigits (n : Nat) :
    ∃ whole, scanWhole (Nat.toDigits 10 n) = some (whole,[]) ∧ Digits.value whole.digits.toList = n := by
  obtain ⟨whole,rfl⟩ := Whole.exists_value n
  have ends : Stops isDigit [] := fun c member => by simp at member
  have scanned := scanWhole_print whole ends
  rw [List.append_nil,whole.print_eq_toDigits] at scanned
  exact ⟨whole,scanned,rfl⟩

theorem toString_inj {m n : Nat} : toString m = toString n ↔ m = n := by
  refine ⟨fun same => ?_,congrArg toString⟩
  rw [Nat.toString_eq_ofList_toDigits,Nat.toString_eq_ofList_toDigits,String.ofList_inj] at same
  rw [← Nat.ofDigitChars_ten_toDigits (n := m),same,Nat.ofDigitChars_ten_toDigits]

theorem toList_toString (n : Int) :
    (toString n).toList = if n < 0 then '-' :: Nat.toDigits 10 n.natAbs else Nat.toDigits 10 n.natAbs := by
  have digits (m : Nat) : (Nat.repr m).toList = Nat.toDigits 10 m := by
    have spelled : Nat.repr m = String.ofList (Nat.toDigits 10 m) := Nat.toString_eq_ofList_toDigits
    rw [spelled,String.toList_ofList]
  cases n with
  | ofNat m =>
    have positive : ¬Int.ofNat m < 0 := by simp
    rw [if_neg positive]
    exact digits m
  | negSucc m =>
    rw [if_pos (Int.negSucc_lt_zero m)]
    change ("-" ++ Nat.repr (m + 1)).toList = _
    rw [String.toList_append,digits]
    rfl

end Jmap.Json
