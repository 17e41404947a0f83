import Jmap.Json.Number
import Mathlib.Tactic.SplitIfs

/-! Integers and their literals: what 64 bits hold is read from its digits as it was
written, and no other integer is ever read. -/
namespace Jmap.Json

/-- Integers of 64 bits, signed or not. -/
def FitsWord (n : Int) : Prop := -(signedLimit : Int) ≤ n ∧ n ≤ (wordMax : Int)

namespace Significand

theorem ofWhole_cons {value : Nat} {digit : Digit} (rest : List Digit) (fits : value * 10 + digit.val ≤ wordMax) :
    ofWhole value (digit :: rest) = ofWhole (value * 10 + digit.val) rest := by
  rw [ofWhole,if_pos fits]

theorem ofWhole_ofDigits (digits : List Digit) :
    ofWhole 0 (Whole.ofDigits digits).digits.toList = ofWhole 0 digits := by
  induction digits with
  | nil => rfl
  | cons first rest ih =>
    rw [Whole.ofDigits]
    split_ifs with leading
    · subst leading
      rw [ih,ofWhole_cons rest (by decide)]
      rfl
    · rfl

/-- The digits that were pushed add up to the number before the tail is read. -/
theorem ofWhole_pushNat {fuel n : Nat} (tail : List Digit) (enough : n < fuel) (fits : n ≤ wordMax) :
    ofWhole 0 (Digits.pushNat fuel n tail) = ofWhole n tail := by
  induction fuel generalizing n tail with
  | zero => omega
  | succ fuel ih =>
    have last : (Fin.ofNat 10 n).val = n % 10 := rfl
    rw [Digits.pushNat]
    split_ifs with single
    · rw [ofWhole_cons tail (by omega),last]
      congr 1
      omega
    · rw [ih _ (by omega) (by omega),ofWhole_cons tail (by omega),last]
      congr 1
      omega

theorem ofWhole_ofNat {n : Nat} (fits : n ≤ wordMax) : ofWhole 0 (Digits.ofNat n) = ⟨n,0⟩ :=
  ofWhole_pushNat [] n.lt_succ_self fits

theorem ofWhole_le {value : Nat} (digits : List Digit) (fits : value ≤ wordMax) :
    (ofWhole value digits).value ≤ wordMax := by
  induction digits generalizing value with
  | nil => exact fits
  | cons digit rest ih =>
    rw [ofWhole]
    split_ifs with next
    · exact ih next
    · exact fits

end Significand

namespace Number

theorem ofLiteral?_ofInt {n : Int} (fits : FitsWord n) : ofLiteral? (.ofInt n) = some (.integer n) := by
  obtain ⟨low,high⟩ := fits
  have smaller : signedLimit ≤ wordMax := by decide
  have whole : Significand.ofWhole 0 (NumberLiteral.ofInt n).whole.digits.toList = ⟨n.natAbs,0⟩ :=
    (Significand.ofWhole_ofDigits _).trans (Significand.ofWhole_ofNat (by omega))
  have plain : (NumberLiteral.ofInt n).isInteger = true := rfl
  have sign : (NumberLiteral.ofInt n).negative = decide (n < 0) := rfl
  rw [ofLiteral?,whole,plain,sign]
  by_cases negative : n < 0
  · have least : 1 ≤ n.natAbs ∧ n.natAbs ≤ signedLimit := by omega
    have same : -(n.natAbs : Int) = n := by omega
    refine Eq.trans ?_ (congrArg (fun value => some (integer value)) same)
    simp [negative,least]
  · have same : (n.natAbs : Int) = n := by omega
    refine Eq.trans ?_ (congrArg (fun value => some (integer value)) same)
    simp [negative]

theorem fitsWord_of_ofLiteral? {literal : NumberLiteral} {n : Int}
    (read : ofLiteral? literal = some (.integer n)) : FitsWord n := by
  have bounded := Significand.ofWhole_le literal.whole.digits.toList (Nat.zero_le wordMax)
  simp only [ofLiteral?] at read
  split_ifs at read with integral positive inside
  · cases read
    exact ⟨by omega,by exact_mod_cast bounded⟩
  · cases read
    exact ⟨by omega,by omega⟩
  all_goals simp [Option.bind_eq_some_iff] at read

end Number
end Jmap.Json
