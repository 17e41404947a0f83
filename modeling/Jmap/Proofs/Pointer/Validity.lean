import Jmap.Proofs.Constrained
import Jmap.Proofs.Pointer.Walk
import Mathlib.Logic.Relation

/-! The rules of identifiers and bounded integers where a pointer gets a value as JSON. Each
leaf of the value is checked, wherever it stands. The keys of a map are written
as they are, and nothing is checked of them where they are identifiers. -/
namespace Jmap
open Json Outcome

namespace Leaf

def isValid : Leaf → Bool
  | .signed n => n.isValid
  | .unsigned n => n.isValid
  | .id value => value.isValid
  | _ => true

/-- What is reported of a leaf that is not valid. -/
def violation : Leaf → Violation
  | .id value => .invalidId value.text
  | _ => .outOfRange

theorem exists_toValue {content : Leaf} (valid : content.isValid) : ∃ value, content.toValue = .ok value := by
  cases content with
  | double number => cases number <;> exact ⟨_,rfl⟩
  | signed n | unsigned n | id n => exact ⟨_,map_eq_ok_iff.mpr ⟨_,if_pos valid,rfl⟩⟩
  | _ => exact ⟨_,rfl⟩

theorem toValue_of_invalid {content : Leaf} (invalid : content.isValid = false) :
    content.toValue = .error (.violation content.violation) := by
  cases content with
  | signed n | unsigned n | id n => exact map_eq_error_iff.mpr (if_neg (Bool.eq_false_iff.mp invalid))
  | _ => contradiction

theorem toValue_eq_error_iff {content : Leaf} {defect : Defect} :
    content.toValue = .error defect ↔ content.isValid = false ∧ defect = .violation content.violation := by
  cases valid : content.isValid with
  | true =>
    obtain ⟨value,written⟩ := exists_toValue valid
    simp [written]
  | false => simp [toValue_of_invalid valid,eq_comm]

theorem isValid_of_toValue {content : Leaf} (written : ∃ value, content.toValue = .ok value) : content.isValid := by
  obtain ⟨value,written⟩ := written
  by_contra invalid
  cases written.symm.trans (toValue_of_invalid (Bool.eq_false_iff.mpr invalid))

end Leaf

namespace Pointable

/-- One place stands directly in another. -/
inductive Part : Pointable → Pointable → Prop where
  | map {entries : List (String × Pointable)} {entry : String × Pointable} (member : entry ∈ entries) :
    Part entry.2 (.map entries)
  | idMap {entries : List (Id × Pointable)} {entry : Id × Pointable} (member : entry ∈ entries) :
    Part entry.2 (.idMap entries)
  | sequence {items : List Pointable} {item : Pointable} (member : item ∈ items) : Part item (.sequence items)
  | present (content : Pointable) : Part content (.present content)
  | record {fields : List (FieldName × Pointable)} {field : FieldName × Pointable} (member : field ∈ fields) :
    Part field.2 (.record fields)

/-- One place is another or stands in it, at any depth. -/
def Within : Pointable → Pointable → Prop := Relation.ReflTransGen Part

theorem Part.sizeOf_lt {part whole : Pointable} (inside : Part part whole) : sizeOf part < sizeOf whole := by
  cases inside with
  | @map _ entry member | @idMap _ entry member | @record _ entry member =>
    have smaller := List.sizeOf_lt_of_mem member
    obtain ⟨name,content⟩ := entry
    simp only [Prod.mk.sizeOf_spec] at smaller
    simp only [map.sizeOf_spec,idMap.sizeOf_spec,record.sizeOf_spec]
    omega
  | sequence member =>
    have smaller := List.sizeOf_lt_of_mem member
    rw [sequence.sizeOf_spec]
    omega
  | present =>
    rw [present.sizeOf_spec]
    omega

section
variable {K : Type} {key : K → String} {entries : List (K × Pointable)}

theorem exists_of_written {written : List (String × Value)} (walked : entries.mapM (toMember key) = .ok written)
    {entry : K × Pointable} (member : entry ∈ entries) : ∃ value, entry.2.toValue = .ok value := by
  obtain ⟨_,gave⟩ := exists_of_mapM walked member
  exact ⟨_,((toMember_eq_ok_iff key).mp gave).2⟩

theorem exists_failing {defect : Defect} (failed : entries.mapM (toMember key) = .error defect) :
    ∃ entry ∈ entries, entry.2.toValue = .error defect := by
  obtain ⟨_,entry,_,rfl,_,culprit⟩ := mapM_eq_error_iff.mp failed
  exact ⟨entry,by simp,map_eq_error_iff.mp culprit⟩

end

theorem Part.exists_toValue {part whole : Pointable} (inside : Part part whole)
    (written : ∃ value, whole.toValue = .ok value) : ∃ value, part.toValue = .ok value := by
  obtain ⟨value,written⟩ := written
  cases inside with
  | map member =>
    obtain ⟨_,walked,_⟩ := map_eq_ok_iff.mp written
    exact exists_of_written (toEntries_eq _ ▸ walked) member
  | idMap member =>
    obtain ⟨_,walked,_⟩ := map_eq_ok_iff.mp written
    exact exists_of_written (toIdEntries_eq _ ▸ walked) member
  | sequence member =>
    obtain ⟨_,walked,_⟩ := map_eq_ok_iff.mp written
    exact exists_of_mapM (toItems_eq _ ▸ walked) member
  | present content => exact ⟨value,written⟩
  | record member =>
    obtain ⟨_,walked,_⟩ := map_eq_ok_iff.mp written
    exact exists_of_written (toFields_eq _ ▸ walked) member

/-- A failure is that of a leaf or of a part. -/
theorem part_of_failure {whole : Pointable} {defect : Defect} (failed : whole.toValue = .error defect) :
    (∃ content, whole = .leaf content) ∨ ∃ part, Part part whole ∧ part.toValue = .error defect := by
  cases whole with
  | leaf content => exact .inl ⟨content,rfl⟩
  | json | absent => contradiction
  | map entries =>
    have walk := map_eq_error_iff.mp failed
    obtain ⟨entry,member,culprit⟩ := exists_failing (toEntries_eq _ ▸ walk)
    exact .inr ⟨entry.2,.map member,culprit⟩
  | idMap entries =>
    have walk := map_eq_error_iff.mp failed
    obtain ⟨entry,member,culprit⟩ := exists_failing (toIdEntries_eq _ ▸ walk)
    exact .inr ⟨entry.2,.idMap member,culprit⟩
  | sequence items =>
    have walk := map_eq_error_iff.mp failed
    obtain ⟨_,item,_,rfl,_,culprit⟩ := mapM_eq_error_iff.mp (toItems_eq _ ▸ walk)
    exact .inr ⟨item,.sequence (by simp),culprit⟩
  | present content => exact .inr ⟨content,.present content,failed⟩
  | record fields =>
    have walk := map_eq_error_iff.mp failed
    obtain ⟨field,member,culprit⟩ := exists_failing (toFields_eq _ ▸ walk)
    exact .inr ⟨field.2,.record member,culprit⟩

theorem Within.exists_toValue {part whole : Pointable} (inside : Within part whole)
    (written : ∃ value, whole.toValue = .ok value) : ∃ value, part.toValue = .ok value := by
  induction inside with
  | refl => exact written
  | tail _ last ih => exact ih (last.exists_toValue written)

/-- By induction on the size, from a place to the part that fails. -/
theorem leaf_of_failure {whole : Pointable} {defect : Defect} (failed : whole.toValue = .error defect) :
    ∃ content, Within (.leaf content) whole ∧ content.isValid = false ∧ defect = .violation content.violation := by
  rcases part_of_failure failed with ⟨content,rfl⟩ | ⟨part,inside,culprit⟩
  · obtain ⟨invalid,same⟩ := Leaf.toValue_eq_error_iff.mp failed
    exact ⟨content,.refl,invalid,same⟩
  · obtain ⟨content,within,invalid,same⟩ := leaf_of_failure culprit
    exact ⟨content,within.tail inside,invalid,same⟩
termination_by sizeOf whole
decreasing_by exact inside.sizeOf_lt

theorem exists_toValue_iff {place : Pointable} :
    (∃ value, place.toValue = .ok value) ↔ ∀ content, Within (.leaf content) place → content.isValid := by
  constructor
  · intro written content within
    exact Leaf.isValid_of_toValue (within.exists_toValue written)
  · intro valid
    cases outcome : place.toValue with
    | ok value => exact ⟨value,rfl⟩
    | error =>
      obtain ⟨content,within,invalid,_⟩ := leaf_of_failure outcome
      exact absurd (valid content within) (Bool.eq_false_iff.mp invalid)

/-- The object of a map has the map's keys for its names, those that are no identifiers too. -/
theorem keys_of_idMap {entries : List (Id × Pointable)} {value : Value} (written : (idMap entries).toValue = .ok value) :
    ∃ object : SortedMap Value, value = .ofMap object ∧ ∀ key, key ∈ object.keys ↔ ∃ entry ∈ entries, entry.1.text = key := by
  obtain ⟨members,walked,rfl⟩ := map_eq_ok_iff.mp written
  refine ⟨.ofList members,rfl,fun key => ?_⟩
  rw [SortedMap.mem_keys_ofList,← names_of_written Id.text (toIdEntries_eq entries ▸ walked),List.mem_map]

/-- A value is got exactly if each leaf at its place is valid, and otherwise the error is that of
one that is not. What the keys of a map are does not count. -/
theorem get_checks_leaves {root place : Pointable} {path : String} {pointer : Pointer}
    (parsed : Pointer.ofText? path = some pointer) (walked : root.walk? pointer.tokens = some place) :
    ((∃ value, root.get path = .ok value) ↔ ∀ content, Within (.leaf content) place → content.isValid) ∧
    (∀ error, root.get path = .error error → ∃ content, Within (.leaf content) place ∧ content.isValid = false ∧
      error = .serialization (.violation content.violation)) ∧
    (∀ entries value, place = .idMap entries → root.get path = .ok value → ∃ object : SortedMap Value,
      value = .ofMap object ∧ ∀ key, key ∈ object.keys ↔ ∃ entry ∈ entries, entry.1.text = key) := by
  have got : root.get path = place.toValue.mapError .serialization := by rw [get_of_pointer parsed,walked]
  simp only [got,mapError_eq_ok_iff]
  refine ⟨exists_toValue_iff,?_,?_⟩
  · intro error failed
    obtain ⟨defect,cause,rfl⟩ := mapError_eq_error_iff.mp failed
    obtain ⟨content,within,invalid,rfl⟩ := leaf_of_failure cause
    exact ⟨content,within,invalid,rfl⟩
  · rintro entries value rfl written
    exact keys_of_idMap written

theorem get_checks_leaves_in_sequence :
    let tags : Pointable := .idMap [(⟨"a b"⟩,.leaf (.id ⟨"M1"⟩))]
    let sizes : Pointable := .sequence [.leaf (.unsigned ⟨7⟩),.present (.leaf (.unsigned ⟨9007199254740992⟩))]
    let root : Pointable := .record [(⟨"tags","tags"⟩,tags),(⟨"m~n","sizes"⟩,sizes)]
    (∀ content, Within (.leaf content) tags → content.isValid) ∧
      (∃ object : SortedMap Value, root.get "/tags" = .ok (.ofMap object) ∧ "a b" ∈ object.keys) ∧
      ∃ content, Within (.leaf content) sizes ∧ content.isValid = false ∧
        root.get "/m~0n" = .error (.serialization (.violation content.violation)) := by
  intro tags sizes root
  obtain ⟨valid,_,keys⟩ := @get_checks_leaves root tags "/tags" ⟨"/tags",["tags"]⟩ rfl rfl
  obtain ⟨_,invalid,_⟩ := @get_checks_leaves root sizes "/m~0n" ⟨"/m~0n",["m~n"]⟩ rfl rfl
  have got : root.get "/tags" = .ok (.object [("a b",.string "M1")]) := rfl
  have refused : root.get "/m~0n" = .error (.serialization (.violation .outOfRange)) := rfl
  obtain ⟨object,same,named⟩ := keys _ _ rfl got
  obtain ⟨content,within,culprit,cause⟩ := invalid _ refused
  exact ⟨valid.mp ⟨_,got⟩,⟨object,same ▸ got,(named "a b").mpr ⟨_,List.mem_singleton_self _,rfl⟩⟩,
    content,within,culprit,cause ▸ refused⟩

/-- An invalid identifier gets out as a key, which the encoder of a map with identifiers for keys refuses. -/
theorem get_writes_invalid_key :
    let entries : List (Id × Pointable) := [(⟨"a b"⟩,.leaf (.integer 1))]
    let root : Pointable := .record [(⟨"tags","tags"⟩,.idMap entries)]
    Pointer.ofText? "/tags" = some ⟨"/tags",["tags"]⟩ ∧ root.walk? ["tags"] = some (.idMap entries) ∧
      (∃ entry ∈ entries, entry.1.isValid = false) ∧ root.get "/tags" = .ok (.object [("a b",.number (.integer 1))]) ∧
      Id.encodeMap (.ofList [("a b","")]) = .error (.violation (.invalidId "a b")) := by
  intro entries root
  exact ⟨rfl,rfl,⟨_,List.mem_singleton_self _,rfl⟩,rfl,rfl⟩

end Pointable
end Jmap
