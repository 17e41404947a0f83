import Jmap.Pointer.Pointable
import Jmap.Proofs.Outcome
import Jmap.Proofs.SortedMap

/-! One token leads from a value to a child as it leads from the JSON that the value is
written as to the JSON of that child, if the fields of records go by their names on the
wire. Maps, sequences, optional values and records each come with one case of it. -/
namespace Jmap
open Json Outcome

namespace Leaf

theorem eq_of_checked {A : Type} [Writable A] {content : A} {value written : Value}
    (made : checked content value = .ok written) : value = written := by
  obtain ⟨_,_,same⟩ := map_eq_ok_iff.mp made
  exact same

theorem child?_toValue {content : Leaf} {value : Value} (written : content.toValue = .ok value) (token : String) :
    (Pointable.json value).child? token = none := by
  cases content with
  | double number => cases number <;> cases written <;> rfl
  | signed n | unsigned n | id n => rw [← eq_of_checked written]; rfl
  | _ => cases written; rfl

end Leaf

namespace Pointable

/-- A map holds each key once, and the fields of a record differ in their names on the wire. -/
inductive WellFormed : Pointable → Prop where
  | leaf (content : Leaf) : WellFormed (.leaf content)
  | json (value : Value) : WellFormed (.json value)
  | map {entries : List (String × Pointable)} (distinct : (entries.map fun entry => entry.1).Nodup)
    (formed : ∀ entry ∈ entries, WellFormed entry.2) : WellFormed (.map entries)
  | idMap {entries : List (Id × Pointable)} (distinct : (entries.map fun entry => entry.1.text).Nodup)
    (formed : ∀ entry ∈ entries, WellFormed entry.2) : WellFormed (.idMap entries)
  | sequence {items : List Pointable} (formed : ∀ item ∈ items, WellFormed item) : WellFormed (.sequence items)
  | absent : WellFormed .absent
  | present {content : Pointable} (formed : WellFormed content) : WellFormed (.present content)
  | record {fields : List (FieldName × Pointable)} (distinct : (fields.map fun field => field.1.wire).Nodup)
    (formed : ∀ field ∈ fields, WellFormed field.2) : WellFormed (.record fields)

section Named
variable {K : Type} (key : K → String)

def named? (token : String) (entries : List (K × Pointable)) : Option Pointable :=
  (entries.find? fun entry => key entry.1 == token).map (·.2)

theorem named?_cons (token : String) (entry : K × Pointable) (entries : List (K × Pointable)) :
    named? key token (entry :: entries) =
      if key entry.1 = token then some entry.2 else named? key token entries := by
  by_cases same : key entry.1 = token <;> simp [named?,same]

def toMember (entry : K × Pointable) : Except Defect (String × Value) := (key entry.1,·) <$> entry.2.toValue

theorem toMember_eq_ok_iff {entry : K × Pointable} {member : String × Value} :
    toMember key entry = .ok member ↔ key entry.1 = member.1 ∧ entry.2.toValue = .ok member.2 := by
  obtain ⟨name,value⟩ := member
  rw [toMember,map_eq_ok_iff]
  constructor
  · rintro ⟨_,written,same⟩
    cases same
    exact ⟨rfl,written⟩
  · rintro ⟨rfl,written⟩
    exact ⟨value,written,rfl⟩

theorem names_of_written {entries : List (K × Pointable)} {written : List (String × Value)}
    (walked : entries.mapM (toMember key) = .ok written) : entries.map (fun entry => key entry.1) = written.map (·.1) := by
  rw [← List.forall₂_eq_eq_eq,List.forall₂_map_left_iff,List.forall₂_map_right_iff]
  exact ((mapM_eq_ok_iff_of (toMember_eq_ok_iff key)).mp walked).imp fun _ _ => And.left

end Named

theorem lookup_eq_named? (token : String) (entries : List (String × Pointable)) :
    entries.lookup token = named? (fun key => key) token entries := by
  induction entries with
  | nil => rfl
  | cons entry rest ih => simp only [SortedMap.lookup_entry,named?_cons,ih,eq_comm]

theorem lookup_id_eq_named? (token : String) (entries : List (Id × Pointable)) :
    entries.lookup ⟨token⟩ = named? Id.text token entries := by
  induction entries with
  | nil => rfl
  | cons entry rest ih =>
    obtain ⟨⟨text⟩,content⟩ := entry
    rw [List.lookup_cons,named?_cons,ih]
    by_cases same : text = token
    · simp [same]
    · have different : ((⟨token⟩ : Id) == ⟨text⟩) = false :=
        beq_eq_false_iff_ne.mpr fun equal => same (congrArg Id.text equal).symm
      simp [same,different]

theorem toEntries_eq (entries : List (String × Pointable)) :
    toEntries entries = entries.mapM (toMember fun key => key) := by
  induction entries with
  | nil => rfl
  | cons entry rest ih =>
    rw [List.mapM_cons,← ih,toEntries,toMember]
    cases entry.2.toValue <;> rfl

theorem toIdEntries_eq (entries : List (Id × Pointable)) : toIdEntries entries = entries.mapM (toMember Id.text) := by
  induction entries with
  | nil => rfl
  | cons entry rest ih =>
    rw [List.mapM_cons,← ih,toIdEntries,toMember]
    cases entry.2.toValue <;> rfl

theorem toFields_eq (fields : List (FieldName × Pointable)) :
    toFields fields = fields.mapM (toMember FieldName.wire) := by
  induction fields with
  | nil => rfl
  | cons field rest ih =>
    rw [List.mapM_cons,← ih,toFields,toMember]
    cases field.2.toValue <;> rfl

theorem toItems_eq (items : List Pointable) : toItems items = items.mapM toValue := by
  induction items with
  | nil => rfl
  | cons item rest ih => rw [List.mapM_cons,← ih,toItems]

/-- A place and the JSON value that it is written as. -/
inductive Shadow : Pointable → Pointable → Prop where
  | of {place : Pointable} {value : Value} (formed : place.WellFormed) (written : place.toValue = .ok value) :
    Shadow place (.json value)

theorem Shadow.json (value : Value) : Shadow (.json value) (.json value) := .of (.json value) rfl

theorem Shadow.child_json (value? : Option Value) :
    Option.Rel Shadow (Pointable.json <$> value?) (Pointable.json <$> value?) := by
  cases value? with
  | none => exact .none
  | some value => exact .some (.json value)

section
variable {K : Type} {key : K → String} {entries : List (K × Pointable)} {written : List (String × Value)}

theorem Shadow.lookup (formed : ∀ entry ∈ entries, entry.2.WellFormed)
    (related : List.Forall₂ (fun entry member => key entry.1 = member.1 ∧ entry.2.toValue = .ok member.2) entries written)
    (token : String) : Option.Rel Shadow (named? key token entries) (Pointable.json <$> written.lookup token) := by
  induction related with
  | nil => exact .none
  | @cons entry member entries written first rest ih =>
    rw [named?_cons,SortedMap.lookup_entry,first.1]
    by_cases same : member.1 = token
    · rw [if_pos same,if_pos same.symm]
      exact .some (.of (formed entry (by simp)) first.2)
    · rw [if_neg same,if_neg (Ne.symm same)]
      exact ih fun other inside => formed other (by simp [inside])

theorem Shadow.named (distinct : (entries.map fun entry => key entry.1).Nodup)
    (formed : ∀ entry ∈ entries, entry.2.WellFormed) (walked : entries.mapM (toMember key) = .ok written)
    (token : String) : Option.Rel Shadow (named? key token entries)
      (Pointable.json <$> (SortedMap.ofList written).entries.lookup token) := by
  have related := (mapM_eq_ok_iff_of (toMember_eq_ok_iff key)).mp walked
  -- no two members have one name, so their order in the object does not count
  have found : (SortedMap.ofList written).entries.lookup token = written.lookup token :=
    SortedMap.find?_ofList written token (names_of_written key walked ▸ distinct)
  rw [found]
  exact Shadow.lookup formed related token

end

theorem Shadow.getElem? {items : List Pointable} {values : List Value} (formed : ∀ item ∈ items, item.WellFormed)
    (related : List.Forall₂ (fun item value => item.toValue = .ok value) items values) (index : Nat) :
    Option.Rel Shadow items[index]? (Pointable.json <$> values[index]?) := by
  induction related generalizing index with
  | nil => exact .none
  | @cons item value items values first rest ih =>
    cases index with
    | zero => exact .some (.of (formed item (by simp)) first)
    | succ index => exact ih (fun other inside => formed other (by simp [inside])) index

theorem Shadow.item {items : List Pointable} {values : List Value}
    (formed : ∀ item ∈ items, item.WellFormed) (walked : items.mapM toValue = .ok values) (token : String) :
    Option.Rel Shadow (item? items token) (Pointable.json <$> item? values token) := by
  have related := mapM_eq_ok_iff.mp walked
  unfold item?
  cases Pointer.index? token with
  | none => exact .none
  | some index => exact Shadow.getElem? formed related index

/-- The child that a token addresses if a field goes by its name on the wire only. -/
def wireChild? (token : String) : Pointable → Option Pointable
  | .present content => content.wireChild? token
  | .record fields => named? FieldName.wire token fields
  | place => place.child? token

/-- One token leads on to a place and to its JSON value, or in both to nothing. -/
theorem Shadow.child {place : Pointable} {value : Value} (formed : place.WellFormed)
    (written : place.toValue = .ok value) (token : String) :
    Option.Rel Shadow (place.wireChild? token) ((Pointable.json value).child? token) := by
  induction formed generalizing value with
  | leaf content =>
    rw [Leaf.child?_toValue written]
    exact .none
  | json own =>
    cases written
    cases own with
    | array items => exact Shadow.child_json (item? items token)
    | object members => exact Shadow.child_json (members.lookup token)
    | _ => exact .none
  | @map entries distinct formed =>
    obtain ⟨members,walked,rfl⟩ := map_eq_ok_iff.mp written
    rw [toEntries_eq] at walked
    show Option.Rel Shadow (entries.lookup token) _
    rw [lookup_eq_named?]
    exact Shadow.named distinct formed walked token
  | @idMap entries distinct formed =>
    obtain ⟨members,walked,rfl⟩ := map_eq_ok_iff.mp written
    rw [toIdEntries_eq] at walked
    show Option.Rel Shadow (entries.lookup ⟨token⟩) _
    rw [lookup_id_eq_named?]
    exact Shadow.named distinct formed walked token
  | sequence formed =>
    obtain ⟨values,walked,rfl⟩ := map_eq_ok_iff.mp written
    rw [toItems_eq] at walked
    exact Shadow.item formed walked token
  | absent =>
    cases written
    exact .none
  | present _ ih => exact ih written
  | record distinct formed =>
    obtain ⟨members,walked,rfl⟩ := map_eq_ok_iff.mp written
    rw [toFields_eq] at walked
    exact Shadow.named distinct formed walked token

end Pointable
end Jmap
