import Mathlib.Computability.Language

/-! Languages whose words are what the values of a type print. The ways in which languages
are put together go with the ways in which types are. -/
namespace Jmap
open scoped Computability

/-- One character, of those with a property. -/
def single (holds : Char → Prop) : Language Char := {cs | ∃ c, holds c ∧ [c] = cs}

def Printed {A : Type} (language : Language Char) (print : A → List Char) : Prop :=
  ∀ cs, cs ∈ language ↔ ∃ value, print value = cs

namespace Printed
variable {A B : Type} {language other : Language Char} {print : A → List Char} {printOther : B → List Char}

theorem word (cs : List Char) : Printed {cs} fun _ : Unit => cs :=
  fun _ => ⟨fun same => ⟨(),same.symm⟩,fun ⟨_,same⟩ => same.symm⟩

theorem single (holds : Char → Prop) : Printed (Jmap.single holds) fun c : {c // holds c} => [c.val] :=
  fun _ => ⟨fun ⟨c,held,same⟩ => ⟨⟨c,held⟩,same⟩,fun ⟨⟨c,held⟩,same⟩ => ⟨c,held,same⟩⟩

theorem oneOf (char : A → Char) (values : List A) (all : ∀ value, value ∈ values) :
    Printed (Jmap.single (· ∈ values.map char)) fun value => [char value] := by
  intro cs
  constructor
  · rintro ⟨c,member,rfl⟩
    obtain ⟨value,_,rfl⟩ := List.mem_map.mp member
    exact ⟨value,rfl⟩
  · rintro ⟨value,rfl⟩
    exact ⟨char value,List.mem_map.mpr ⟨value,all value,rfl⟩,rfl⟩

theorem add (left : Printed language print) (right : Printed other printOther) :
    Printed (language + other) (Sum.elim print printOther) := by
  intro cs
  rw [Language.mem_add,left,right]
  simp

theorem mul (left : Printed language print) (right : Printed other printOther) :
    Printed (language * other) fun pair : A × B => print pair.1 ++ printOther pair.2 := by
  intro cs
  rw [Language.mem_mul]
  constructor
  · rintro ⟨front,first,back,second,rfl⟩
    obtain ⟨value,rfl⟩ := (left front).mp first
    obtain ⟨partner,rfl⟩ := (right back).mp second
    exact ⟨(value,partner),rfl⟩
  · rintro ⟨⟨value,partner⟩,rfl⟩
    exact ⟨_,(left _).mpr ⟨value,rfl⟩,_,(right _).mpr ⟨partner,rfl⟩,rfl⟩

theorem star (printed : Printed language print) : Printed language∗ fun values : List A => values.flatMap print := by
  intro cs
  rw [Language.mem_kstar]
  constructor
  · rintro ⟨pieces,rfl,inside⟩
    induction pieces with
    | nil => exact ⟨[],rfl⟩
    | cons piece pieces ih =>
      obtain ⟨value,rfl⟩ := (printed piece).mp (inside piece (by simp))
      obtain ⟨values,same⟩ := ih fun later member => inside later (by simp [member])
      exact ⟨value :: values,by rw [List.flatten_cons,← same]; rfl⟩
  · rintro ⟨values,rfl⟩
    refine ⟨values.map print,List.flatMap_def ..,fun piece member => ?_⟩
    obtain ⟨value,_,rfl⟩ := List.mem_map.mp member
    exact (printed _).mpr ⟨value,rfl⟩

theorem letters {char : A → Char} (printed : Printed language fun value => [char value]) :
    Printed language∗ fun values : List A => values.map char := by
  have same (values : List A) : (values.flatMap fun value => [char value]) = values.map char :=
    List.flatMap_pure_eq_map char values
  simpa only [same] using printed.star

theorem optional (printed : Printed language print) :
    Printed (1 + language) fun value? : Option A => value?.elim [] print := by
  intro cs
  rw [Language.mem_add,Language.mem_one,printed]
  constructor
  · rintro (rfl | ⟨value,rfl⟩)
    · exact ⟨none,rfl⟩
    · exact ⟨some value,rfl⟩
  · rintro ⟨_ | value,rfl⟩
    · exact .inl rfl
    · exact .inr ⟨value,rfl⟩

/-- Another type prints the same words. -/
theorem through (printed : Printed language print) (forth : ∀ value, ∃ partner, printOther partner = print value)
    (back : ∀ partner, ∃ value, print value = printOther partner) : Printed language printOther := by
  intro cs
  rw [printed]
  constructor
  · rintro ⟨value,rfl⟩
    exact forth value
  · rintro ⟨partner,rfl⟩
    exact back partner

end Printed
end Jmap
