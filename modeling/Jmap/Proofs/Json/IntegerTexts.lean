import Jmap.Proofs.Json.Decimals
import Jmap.Proofs.Json.Derivation
import Jmap.Proofs.Json.Integers
import Jmap.Proofs.Json.Rereading

/-! Integers among the texts of JSON. Their literals are the decimal spellings, of any
length, and what is read of one is its value if that fits the word that is asked for. -/
namespace Jmap.Json
open Outcome

namespace NumberLiteral

def size (literal : NumberLiteral) : Nat := Digits.value literal.whole.digits.toList

theorem print_of_isInteger {literal : NumberLiteral} (integral : literal.isInteger) : literal.print =
    if literal.negative then '-' :: Nat.toDigits 10 literal.size else Nat.toDigits 10 literal.size := by
  obtain ⟨negative,whole,fraction,exponent⟩ := literal
  simp only [isInteger,Bool.and_eq_true,Option.isNone_iff_eq_none] at integral
  obtain ⟨rfl,rfl⟩ := integral
  simp [print,printUnsigned,printFraction,printExponent,size,whole.print_eq_toDigits]

theorem size_ofInt (n : Int) : (ofInt n).size = n.natAbs := (Whole.value_ofDigits _).trans (Digits.value_ofNat _)

theorem ofInt_injective : Function.Injective ofInt := by
  intro m n same
  have size : m.natAbs = n.natAbs := by rw [← size_ofInt m,same,size_ofInt]
  have sign : decide (m < 0) = decide (n < 0) := congrArg negative same
  have negative := decide_eq_decide.mp sign
  omega

theorem print_ofInt (n : Int) : (ofInt n).print = (toString n).toList := by
  have integral : (ofInt n).isInteger := rfl
  rw [print_of_isInteger integral,size_ofInt,toList_toString]
  simp [ofInt]

theorem eq_ofInt_iff {literal : NumberLiteral} {n : Int} : literal = .ofInt n ↔ literal.print = (toString n).toList := by
  rw [← print_ofInt]
  refine ⟨congrArg print,fun same => ?_⟩
  have nodes : Node.number literal = .number (.ofInt n) := Node.eq_of_print rfl rfl same
  exact Node.number.inj nodes

end NumberLiteral

/-- Where no digit was left out, the digits add up without overflow. -/
theorem Significand.value_of_exponent {value : Nat} {digits : List Digit} (fits : (ofWhole value digits).exponent = 0) :
    (ofWhole value digits).value = digits.foldl (fun (value : Nat) digit => value * 10 + digit.val) value := by
  induction digits generalizing value with
  | nil => rfl
  | cons digit rest ih =>
    rw [ofWhole] at fits ⊢
    split_ifs at fits ⊢ with next
    · exact ih fits
    · -- The digit that did not fit is counted by the exponent.
      simp at fits
      omega

/-- A literal is an integer of 64 bits just if it is the decimal spelling of one. -/
theorem Number.ofLiteral?_eq_integer_iff {literal : NumberLiteral} {n : Int} :
    ofLiteral? literal = some (.integer n) ↔ literal = .ofInt n ∧ FitsWord n := by
  refine ⟨fun read => ⟨?_,fitsWord_of_ofLiteral? read⟩,fun ⟨same,fits⟩ => same ▸ ofLiteral?_ofInt fits⟩
  have size (fits : (Significand.ofWhole 0 literal.whole.digits.toList).exponent = 0) :
      (Significand.ofWhole 0 literal.whole.digits.toList).value = literal.size := Significand.value_of_exponent fits
  rw [NumberLiteral.eq_ofInt_iff,toList_toString]
  simp only [ofLiteral?] at read
  split_ifs at read with integral positive inside
  · obtain ⟨plain,fits⟩ := integral
    have unsigned : literal.negative = false := by simpa using positive
    cases read
    rw [NumberLiteral.print_of_isInteger plain,unsigned,size fits]
    simp
  · obtain ⟨plain,fits⟩ := integral
    have signed : literal.negative = true := by simpa using positive
    cases read
    rw [size fits] at inside ⊢
    -- Minus zero is not inside, so there is a sign before the digits.
    have negative : -(literal.size : Int) < 0 := by omega
    rw [NumberLiteral.print_of_isInteger plain,signed,if_pos rfl,if_pos negative,Int.natAbs_neg,Int.natAbs_natCast]
  all_goals simp [Option.bind_eq_some_iff] at read

/-- A number without fraction and exponent. -/
def Grammar.integer : Language Char := (1 + {['-']}) * whole

/-- Each of its words but minus zero is the decimal spelling of an integer. -/
theorem Grammar.mem_integer_iff {cs : List Char} :
    cs ∈ integer ↔ cs = ['-','0'] ∨ ∃ v : Int, cs = (toString v).toList := by
  refine (printed_minus.mul printed_whole _).trans ⟨?_,?_⟩
  · rintro ⟨⟨negative,whole⟩,rfl⟩
    have digits := whole.print_eq_toDigits
    generalize Digits.value whole.digits.toList = size at digits
    dsimp only
    rw [digits]
    cases negative with
    | false =>
      have positive : ¬(size : Int) < 0 := by omega
      exact .inr ⟨size,by rw [toList_toString,if_neg positive,Int.natAbs_natCast]; rfl⟩
    | true =>
      obtain rfl | positive := Nat.eq_zero_or_pos size
      · exact .inl rfl
      · have negative : -(size : Int) < 0 := by omega
        exact .inr ⟨-size,by rw [toList_toString,if_pos negative,Int.natAbs_neg,Int.natAbs_natCast]; rfl⟩
  · rintro (rfl | ⟨v,rfl⟩)
    · exact ⟨(true,.zero),rfl⟩
    · obtain ⟨whole,size⟩ := Whole.exists_value v.natAbs
      refine ⟨(decide (v < 0),whole),?_⟩
      dsimp only
      rw [whole.print_eq_toDigits,size,toList_toString]
      by_cases negative : v < 0 <;> simp [negative]

theorem Grammar.minusZero : ValueText ['-','0'] := .number ((printed_number _).mpr ⟨⟨true,.zero,none,none⟩,rfl⟩)

theorem toString_ne_minusZero (v : Int) : (toString v).toList ≠ ['-','0'] := by
  intro same
  have literal : ⟨true,.zero,none,none⟩ = NumberLiteral.ofInt v := NumberLiteral.eq_ofInt_iff.mpr same.symm
  have sign : true = decide (v < 0) := congrArg NumberLiteral.negative literal
  have negative : v < 0 := of_decide_eq_true sign.symm
  have size : 0 = v.natAbs := (congrArg NumberLiteral.size literal).trans (NumberLiteral.size_ofInt v)
  omega

/-- The decimal spelling of the integer, however long, between blanks. -/
def IntegerText (text : String) (v : Int) : Prop := Padded text (toString v).toList

theorem integerText_iff {text : String} {v : Int} : IntegerText text v ↔
    (Document.ofText text).root = .ofInt v ∧ (Document.ofText text).trailing = [] := by
  have spelled : (Node.ofInt v).print = (toString v).toList := NumberLiteral.print_ofInt v
  rw [IntegerText,← spelled]
  constructor
  · exact Document.of_padded rfl
  · rintro ⟨root,ends⟩
    rw [← root]
    exact Document.padded (by rw [root]; rfl) ends

namespace IntegerText

theorem unique {text : String} {v w : Int} (first : IntegerText text v) (second : IntegerText text w) : v = w := by
  have same : Node.ofInt v = .ofInt w := (integerText_iff.mp first).1.symm.trans (integerText_iff.mp second).1
  exact NumberLiteral.ofInt_injective (Node.number.inj same)

theorem eq_of_padded {text : String} {part : List Char} {v : Int} (integer : IntegerText text v)
    (value : Grammar.ValueText part) (padded : Padded text part) : part = (toString v).toList := by
  obtain ⟨node,closed,rfl⟩ := exists_node value
  obtain ⟨root,-⟩ := Document.of_padded closed padded
  rw [← root,(integerText_iff.mp integer).1]
  exact NumberLiteral.print_ofInt v

theorem of_toString (v : Int) : IntegerText (toString v) v :=
  ⟨[],[],Language.nil_mem_kstar _,Language.nil_mem_kstar _,by simp⟩

end IntegerText

namespace Reader
variable {A B : Type} {low high : Int}

theorem integer_eq_ok_iff {room : Nat} {node : Node} {v : Int} (least : -(signedLimit : Int) ≤ low) (most : high ≤ wordMax) :
    Reader.integer low high room node = .ok v ↔ node = .ofInt v ∧ low ≤ v ∧ v ≤ high := by
  constructor
  · intro read
    unfold Reader.integer at read
    split at read
    next literal =>
      split at read
      next n number =>
        obtain ⟨rfl,-⟩ := Number.ofLiteral?_eq_integer_iff.mp number
        split_ifs at read with inside
        cases read
        exact ⟨rfl,inside⟩
      next => contradiction
    next => contradiction
  · rintro ⟨rfl,inside⟩
    have number := Number.ofLiteral?_ofInt (n := v) ⟨by omega,by omega⟩
    simp [Reader.integer,Node.ofInt,number,inside]

theorem Uniform.integer : Uniform (Reader.integer low high) := by
  intro room node defect failed
  unfold Reader.integer at failed
  split at failed
  · split at failed
    · split_ifs at failed
      cases failed
      rfl
    · cases failed
      rfl
  · cases failed
    rfl

/-- Nothing trails the value, so what is done with it comes last. -/
theorem ofText_andThen (reader : Reader A) (next : A → Except Defect B) {text : String}
    (ends : (Document.ofText text).trailing = []) : (reader.andThen next).ofText text = reader.ofText text >>= next := by
  unfold ofText ofDocument andThen
  rw [ends]
  cases reader maxDepth (Document.ofText text).root with
  | error => rfl
  | ok value =>
    change (next value >>= pure) = next value
    exact bind_pure (next value)

theorem ofText_integer_eq_ok_iff {text : String} {v : Int} (least : -(signedLimit : Int) ≤ low) (most : high ≤ wordMax) :
    (Reader.integer low high).ofText text = .ok v ↔ IntegerText text v ∧ low ≤ v ∧ v ≤ high := by
  rw [ofText_eq_ok_iff,integer_eq_ok_iff least most,integerText_iff]
  tauto

/-- The value decides, and it is what is read. -/
theorem ofText_integer {text : String} {v : Int} (least : -(signedLimit : Int) ≤ low) (most : high ≤ wordMax)
    (integer : IntegerText text v) :
    (Reader.integer low high).ofText text = if low ≤ v ∧ v ≤ high then .ok v else .error .malformed := by
  split_ifs with fits
  · exact (ofText_integer_eq_ok_iff least most).mpr ⟨integer,fits⟩
  · cases read : (Reader.integer low high).ofText text with
    | error defect => rw [Uniform.integer.ofText read]
    | ok other =>
      obtain ⟨spelled,bounds⟩ := (ofText_integer_eq_ok_iff least most).mp read
      rw [integer.unique spelled] at fits
      contradiction

end Reader

end Jmap.Json
