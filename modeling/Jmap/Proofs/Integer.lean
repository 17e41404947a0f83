import Jmap.Integer
import Jmap.Proofs.Json.IntegerTexts
import Mathlib.Algebra.Ring.Int.Defs

/-! Bounded integers as JSON. Whether one is written or read depends on its value alone,
and what is written or read is that value. -/
namespace Jmap
open Json Outcome

namespace Json

/-- What is written and read of integers between `least` and `most`, where a machine word
holds those between `low` and `high`. -/
structure ExactIntegers {N : Type} [Writable N] (reader : Reader N) (value : N → Int) (least most low high : Int) : Prop where
  written_iff : ∀ n : N, (∃ raw, encode n = .ok raw) ↔ least ≤ value n ∧ value n ≤ most
  reread : ∀ (n : N) raw, encode n = .ok raw → raw.text = toString (value n) ∧ reader.ofText raw.text = .ok n
  refused : ∀ (n : N) defect, encode n = .error defect → defect = .violation .outOfRange
  read_iff : ∀ text v, IntegerText text v →
    ((∃ n, reader.ofText text = .ok n ∧ value n = v) ↔ least ≤ v ∧ v ≤ most)
  outOfRange_iff : ∀ text v, IntegerText text v →
    (reader.ofText text = .error (.violation .outOfRange) ↔ (low ≤ v ∧ v ≤ high) ∧ ¬(least ≤ v ∧ v ≤ most))
  malformed_iff : ∀ text v, IntegerText text v → (reader.ofText text = .error .malformed ↔ ¬(low ≤ v ∧ v ≤ high))
  others : ∀ text part, Padded text part → Grammar.ValueText part → part ∉ Grammar.integer ∨ part = ['-','0'] →
    reader.ofText text = .error .malformed
  /-- Nothing else is read from any text, be it JSON or not. -/
  spelled : ∀ text n, reader.ofText text = .ok n → IntegerText text (value n)

section
variable {N : Type} {value : N → Int} {make : Int → N} {next : Int → Except Defect N} {least most low high : Int}

/-- The word that was read is kept if it is in range. -/
structure RangeCheck (value : N → Int) (make : Int → N) (next : Int → Except Defect N) (least most low high : Int) : Prop where
  low_le : -(signedLimit : Int) ≤ low
  le_high : high ≤ wordMax
  inside : low ≤ least ∧ most ≤ high
  value_make : ∀ v, low ≤ v → value (make v) = v
  make_value : ∀ n, make (value n) = n
  next_eq : ∀ v, low ≤ v → v ≤ high → next v =
    if least ≤ v ∧ v ≤ most then .ok (make v) else .error (.violation .outOfRange)

namespace RangeCheck
variable (check : RangeCheck value make next least most low high)
include check

theorem fits {v : Int} (safe : least ≤ v ∧ v ≤ most) : low ≤ v ∧ v ≤ high :=
  ⟨check.inside.1.trans safe.1,safe.2.trans check.inside.2⟩

theorem ofText_integer {text : String} {v : Int} (integer : IntegerText text v) :
    ((Reader.integer low high).andThen next).ofText text =
      if low ≤ v ∧ v ≤ high then
        if least ≤ v ∧ v ≤ most then .ok (make v) else .error (.violation .outOfRange)
      else .error .malformed := by
  rw [Reader.ofText_andThen _ next (integerText_iff.mp integer).2,Reader.ofText_integer check.low_le check.le_high integer]
  split_ifs with fits safe
  · rw [ok_bind,check.next_eq v fits.1 fits.2,if_pos safe]
  · rw [ok_bind,check.next_eq v fits.1 fits.2,if_neg safe]
  · rfl

theorem integerText_of_ok {text : String} {n : N} (read : ((Reader.integer low high).andThen next).ofText text = .ok n) :
    IntegerText text (value n) := by
  have ends := (Reader.ofText_eq_ok_iff.mp read).2
  rw [Reader.ofText_andThen _ next ends] at read
  obtain ⟨v,word,kept⟩ := bind_eq_ok_iff.mp read
  obtain ⟨integer,fits,bound⟩ := (Reader.ofText_integer_eq_ok_iff check.low_le check.le_high).mp word
  rw [check.next_eq v fits bound] at kept
  split_ifs at kept with safe
  cases kept
  rwa [check.value_make v fits]

theorem malformed {text : String} {part : List Char} (padded : Padded text part) (value : Grammar.ValueText part)
    (other : part ∉ Grammar.integer ∨ part = ['-','0']) :
    ((Reader.integer low high).andThen next).ofText text = .error .malformed := by
  obtain ⟨node,closed,rfl⟩ := exists_node value
  obtain ⟨-,ends⟩ := Document.of_padded closed padded
  rw [Reader.ofText_andThen _ next ends]
  cases read : (Reader.integer low high).ofText text with
  | error defect => rw [Reader.Uniform.integer.ofText read,error_bind]
  | ok v =>
    obtain ⟨integer,-⟩ := (Reader.ofText_integer_eq_ok_iff check.low_le check.le_high).mp read
    have spelled := integer.eq_of_padded value padded
    obtain foreign | minusZero := other
    · exact absurd (Grammar.mem_integer_iff.mpr (.inr ⟨v,spelled⟩)) foreign
    · exact absurd (spelled.symm.trans minusZero) (toString_ne_minusZero v)

theorem exact [Writable N] (written : ∀ n : N, encode n =
      if least ≤ value n ∧ value n ≤ most then .ok (.ofInt (value n)) else .error (.violation .outOfRange)) :
    ExactIntegers ((Reader.integer low high).andThen next) value least most low high where
  written_iff n := by
    rw [written n]
    split_ifs with safe <;> simp [safe]
  reread n raw kept := by
    rw [written n] at kept
    split_ifs at kept with safe
    cases kept
    have text : (Raw.ofInt (value n)).text = toString (value n) := by
      apply String.toList_inj.mp
      rw [Raw.toList_text]
      exact NumberLiteral.print_ofInt (value n)
    rw [text,check.ofText_integer (.of_toString _),if_pos (check.fits safe),if_pos safe,check.make_value]
    exact ⟨rfl,rfl⟩
  refused n defect failed := by
    rw [written n] at failed
    split_ifs at failed
    cases failed
    rfl
  read_iff text v integer := by
    rw [check.ofText_integer integer]
    constructor
    · rintro ⟨n,read,rfl⟩
      split_ifs at read with fits safe
      exact safe
    · intro safe
      have fits := check.fits safe
      rw [if_pos fits,if_pos safe]
      exact ⟨make v,rfl,check.value_make v fits.1⟩
  outOfRange_iff text v integer := by
    rw [check.ofText_integer integer]
    split_ifs <;> simp_all
  malformed_iff text v integer := by
    rw [check.ofText_integer integer]
    split_ifs <;> simp_all
  others _ _ := check.malformed
  spelled _ _ := check.integerText_of_ok

end RangeCheck
end

end Json

theorem maxSafeInteger_eq : maxSafeInteger = 2 ^ 53 - 1 := by decide

theorem SignedInt.isValid_iff {n : SignedInt} : n.isValid ↔ -(2 ^ 53 - 1) ≤ n.value ∧ n.value ≤ 2 ^ 53 - 1 := by
  rw [isValid,Bool.and_eq_true,decide_eq_true_iff,decide_eq_true_iff,maxSafeInteger_eq]

theorem UnsignedInt.isValid_iff {n : UnsignedInt} : n.isValid ↔ (0 : Int) ≤ n.value ∧ (n.value : Int) ≤ 2 ^ 53 - 1 := by
  rw [isValid,decide_eq_true_iff,maxSafeInteger_eq]
  omega

theorem SignedInt.rangeCheck : RangeCheck value mk (fun n => (new n).mapError .violation) (-(2 ^ 53 - 1)) (2 ^ 53 - 1)
    (-2 ^ 63) (2 ^ 63 - 1) where
  low_le := by decide
  le_high := by decide
  inside := by decide
  value_make _ _ := rfl
  make_value _ := rfl
  next_eq v _ _ := by
    simp only [new,isValid_iff]
    split_ifs <;> rfl

theorem UnsignedInt.rangeCheck : RangeCheck (fun n => (n.value : Int)) (fun v => ⟨v.toNat⟩)
    (fun n => (new n.toNat).mapError .violation) 0 (2 ^ 53 - 1) 0 (2 ^ 64 - 1) where
  low_le := by decide
  le_high := by decide
  inside := by decide
  value_make _ fits := Int.toNat_of_nonneg fits
  make_value _ := rfl
  next_eq v fits _ := by
    simp only [new,isValid_iff,Int.toNat_of_nonneg fits]
    split_ifs <;> rfl

/-- Integers of 53 bits are written and read as they are, and no others; a literal is out of
range if it is one of a machine word, else it is malformed as any other text. -/
theorem integers_exact :
    ExactIntegers SignedInt.reader SignedInt.value (-(2 ^ 53 - 1)) (2 ^ 53 - 1) (-2 ^ 63) (2 ^ 63 - 1) ∧
      ExactIntegers UnsignedInt.reader (fun n => (n.value : Int)) 0 (2 ^ 53 - 1) 0 (2 ^ 64 - 1) ∧
      ∀ cs, cs ∈ Grammar.integer ↔ cs = ['-','0'] ∨ ∃ v : Int, cs = (toString v).toList := by
  have signed (n : SignedInt) : encode n = if -(2 ^ 53 - 1) ≤ n.value ∧ n.value ≤ 2 ^ 53 - 1
      then .ok (.ofInt n.value) else .error (.violation .outOfRange) := by
    simp only [encode,SignedInt.isValid_iff]
  have unsigned (n : UnsignedInt) : encode n = if (0 : Int) ≤ n.value ∧ (n.value : Int) ≤ 2 ^ 53 - 1
      then .ok (.ofInt n.value) else .error (.violation .outOfRange) := by
    simp only [encode,UnsignedInt.isValid_iff]
  exact ⟨SignedInt.rangeCheck.exact signed,UnsignedInt.rangeCheck.exact unsigned,fun _ => Grammar.mem_integer_iff⟩

/-- On both sides of both limits, and at minus zero. -/
theorem integers_exact_limits :
    (∃ n, SignedInt.reader.ofText (toString (9007199254740991 : Int)) = .ok n ∧ n.value = 9007199254740991) ∧
      SignedInt.reader.ofText (toString (-9223372036854775808 : Int)) = .error (.violation .outOfRange) ∧
      SignedInt.reader.ofText (toString (9223372036854775808 : Int)) = .error .malformed ∧
      UnsignedInt.reader.ofText (toString (9223372036854775808 : Int)) = .error (.violation .outOfRange) ∧
      UnsignedInt.reader.ofText (toString (-1 : Int)) = .error .malformed ∧
      (Padded "-0" ['-','0'] ∧ SignedInt.reader.ofText "-0" = .error .malformed) ∧
      (∃ raw, encode (⟨9007199254740991⟩ : SignedInt) = .ok raw ∧ raw.text = toString (9007199254740991 : Int)) ∧
      ¬∃ raw, encode (⟨9007199254740992⟩ : SignedInt) = .ok raw := by
  obtain ⟨signed,unsigned,_⟩ := integers_exact
  have spelled := IntegerText.of_toString
  have padded : Padded "-0" ['-','0'] := ⟨[],[],Language.nil_mem_kstar _,Language.nil_mem_kstar _,rfl⟩
  obtain ⟨raw,written⟩ := (signed.written_iff ⟨9007199254740991⟩).mpr (by decide)
  exact ⟨(signed.read_iff _ _ (spelled _)).mpr (by decide),
    (signed.outOfRange_iff _ _ (spelled _)).mpr (by decide),
    (signed.malformed_iff _ _ (spelled _)).mpr (by decide),
    (unsigned.outOfRange_iff _ _ (spelled _)).mpr (by decide),
    (unsigned.malformed_iff _ _ (spelled _)).mpr (by decide),
    ⟨padded,signed.others _ _ padded Grammar.minusZero (.inr rfl)⟩,
    ⟨raw,written,(signed.reread _ _ written).1⟩,
    (signed.written_iff _).not.mpr (by decide)⟩

end Jmap
