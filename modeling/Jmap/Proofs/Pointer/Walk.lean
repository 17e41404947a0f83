import Jmap.Proofs.Pointer.Shadow
import Jmap.Proofs.Pointer.Text

/-! A value is walked as the JSON that it is written as would be. In step with each
place goes the JSON value of that place; only fields of records have one name more
than the members that stand for them. -/
namespace Jmap
open Json Outcome

namespace Pointable

/-- There is no record in the value, at any depth. -/
inductive Recordless : Pointable → Prop where
  | leaf (content : Leaf) : Recordless (.leaf content)
  | json (value : Value) : Recordless (.json value)
  | map {entries : List (String × Pointable)} (plain : ∀ entry ∈ entries, Recordless entry.2) :
    Recordless (.map entries)
  | idMap {entries : List (Id × Pointable)} (plain : ∀ entry ∈ entries, Recordless entry.2) :
    Recordless (.idMap entries)
  | sequence {items : List Pointable} (plain : ∀ item ∈ items, Recordless item) : Recordless (.sequence items)
  | absent : Recordless .absent
  | present {content : Pointable} (plain : Recordless content) : Recordless (.present content)

section Named
variable {K : Type} {key : K → String} {entries : List (K × Pointable)}

theorem mem_of_named? {token : String} {content : Pointable}
    (found : named? key token entries = some content) : ∃ entry ∈ entries, entry.2 = content := by
  obtain ⟨entry,first,same⟩ := Option.map_eq_some_iff.mp found
  exact ⟨entry,List.mem_of_find?_eq_some first,same⟩

theorem named?_of_mem (distinct : (entries.map fun entry => key entry.1).Nodup)
    {entry : K × Pointable} (member : entry ∈ entries) : named? key (key entry.1) entries = some entry.2 := by
  induction entries with
  | nil => contradiction
  | cons first rest ih =>
    simp only [List.map_cons,List.nodup_cons] at distinct
    rw [named?_cons]
    rcases List.mem_cons.mp member with rfl | inside
    · exact if_pos rfl
    · have different : key first.1 ≠ key entry.1 := by
        intro same
        exact distinct.1 (same ▸ List.mem_map.mpr ⟨entry,inside,rfl⟩)
      rw [if_neg different]
      exact ih distinct.2 inside

end Named

/-- A name that leads to a field and is no field's name on the wire gives way to the
name that the field has there. Any other token is kept. -/
def wireToken (token : String) : Pointable → String
  | .present content => content.wireToken token
  | .record fields =>
    match fields.find? (·.1.wire == token),fields.find? (·.1.own == token) with
    | none,some field => field.1.wire
    | _,_ => token
  | _ => token

theorem child?_eq_wireChild? {place : Pointable} (formed : place.WellFormed) (token : String) :
    place.child? token = place.wireChild? (place.wireToken token) := by
  induction formed with
  | present _ ih => exact ih
  | @record fields distinct formed =>
    show ((fields.find? (·.1.wire == token)).or (fields.find? (·.1.own == token))).map (·.2) =
      named? FieldName.wire (wireToken token (.record fields)) fields
    unfold wireToken
    cases onWire : fields.find? (·.1.wire == token) with
    | some field => simp [named?,onWire]
    | none =>
      cases inRecord : fields.find? (·.1.own == token) with
      | none => simp [named?,onWire]
      | some field => exact (named?_of_mem distinct (List.mem_of_find?_eq_some inRecord)).symm
  | _ => rfl

theorem child?_of_wireChild? {place child : Pointable} (formed : place.WellFormed) {token : String}
    (found : place.wireChild? token = some child) : place.child? token = some child := by
  induction formed with
  | present _ ih => exact ih found
  | @record fields distinct formed =>
    obtain ⟨field,first,same⟩ := Option.map_eq_some_iff.mp found
    show ((fields.find? (·.1.wire == token)).or (fields.find? (·.1.own == token))).map (·.2) = some child
    simp [first,same]
  | _ => exact found

namespace Recordless

theorem wireChild?_eq {place : Pointable} (plain : place.Recordless) (token : String) :
    place.wireChild? token = place.child? token := by
  induction plain with
  | present _ ih => exact ih
  | _ => rfl

theorem child {place child : Pointable} (plain : place.Recordless) {token : String}
    (found : place.child? token = some child) : child.Recordless := by
  induction plain with
  | leaf content => contradiction
  | json value =>
    cases value with
    | array items =>
      obtain ⟨item,_,rfl⟩ := Option.map_eq_some_iff.mp found
      exact .json item
    | object members =>
      obtain ⟨member,_,rfl⟩ := Option.map_eq_some_iff.mp found
      exact .json member
    | _ => contradiction
  | map plain =>
    obtain ⟨entry,member,rfl⟩ := mem_of_named? ((lookup_eq_named? _ _).symm.trans found)
    exact plain entry member
  | idMap plain =>
    obtain ⟨entry,member,rfl⟩ := mem_of_named? ((lookup_id_eq_named? _ _).symm.trans found)
    exact plain entry member
  | sequence plain =>
    obtain ⟨index,_,here⟩ := Option.bind_eq_some_iff.mp found
    exact plain child (List.mem_of_getElem? here)
  | absent => contradiction
  | present _ ih => exact ih found

end Recordless

theorem walk?_cons (place : Pointable) (token : String) (rest : List String) :
    place.walk? (token :: rest) = (place.child? token).bind fun child => child.walk? rest := rfl

def wireTokens : Pointable → List String → List String
  | _,[] => []
  | place,token :: rest =>
    place.wireToken token :: match place.child? token with
      | none => rest
      | some child => child.wireTokens rest

theorem Shadow.walk_of_json {place shadow target : Pointable} (mirrored : Shadow place shadow) {tokens : List String}
    (found : shadow.walk? tokens = some target) :
    ∃ origin, place.walk? tokens = some origin ∧ Shadow origin target := by
  induction tokens generalizing place shadow with
  | nil =>
    cases found
    exact ⟨place,rfl,mirrored⟩
  | cons token rest ih =>
    obtain ⟨formed,written⟩ := mirrored
    rw [walk?_cons] at found
    obtain ⟨next,first,following⟩ := Option.bind_eq_some_iff.mp found
    have step := Shadow.child formed written token
    rw [first] at step
    obtain ⟨child,onWire,inner⟩ := rel_some_iff.mp step
    obtain ⟨origin,reached,last⟩ := ih inner following
    refine ⟨origin,?_,last⟩
    rw [walk?_cons,child?_of_wireChild? formed onWire]
    exact reached

theorem Shadow.walk_to_json {place shadow origin : Pointable} (mirrored : Shadow place shadow) {tokens : List String}
    (found : place.walk? tokens = some origin) :
    ∃ target, shadow.walk? (place.wireTokens tokens) = some target ∧ Shadow origin target := by
  induction tokens generalizing place shadow with
  | nil =>
    cases found
    exact ⟨shadow,rfl,mirrored⟩
  | cons token rest ih =>
    obtain ⟨formed,written⟩ := mirrored
    rw [walk?_cons] at found
    obtain ⟨child,first,following⟩ := Option.bind_eq_some_iff.mp found
    have step := Shadow.child formed written (place.wireToken token)
    rw [← child?_eq_wireChild? formed,first] at step
    obtain ⟨next,inJson,inner⟩ := some_rel_iff.mp step
    obtain ⟨target,reached,last⟩ := ih inner following
    refine ⟨target,?_,last⟩
    rw [wireTokens,first,walk?_cons,inJson]
    exact reached

theorem Shadow.walk_plain {place shadow : Pointable} (mirrored : Shadow place shadow) (plain : place.Recordless)
    (tokens : List String) : Option.Rel Shadow (place.walk? tokens) (shadow.walk? tokens) := by
  induction tokens generalizing place shadow with
  | nil => exact .some mirrored
  | cons token rest ih =>
    obtain ⟨formed,written⟩ := mirrored
    have step := Shadow.child formed written token
    rw [plain.wireChild?_eq] at step
    rw [walk?_cons,walk?_cons]
    cases first : place.child? token with
    | none =>
      rw [first,none_rel_iff] at step
      rw [step]
      exact .none
    | some child =>
      rw [first] at step
      obtain ⟨next,inJson,inner⟩ := some_rel_iff.mp step
      rw [inJson]
      exact ih inner (plain.child first)

/-- The path with names on the wire in place of the names of fields. What is no
pointer stays as it is. -/
def wirePath (place : Pointable) (path : String) : String :=
  match Pointer.ofText? path with
  | none => path
  | some pointer => Pointer.text (.ofTokens (place.wireTokens pointer.tokens))

theorem get_of_pointer {path : String} {pointer : Pointer} (parsed : Pointer.ofText? path = some pointer)
    (place : Pointable) : place.get path = match place.walk? pointer.tokens with
      | none => .error (.noPointerValue pointer.text)
      | some target => target.toValue.mapError .serialization := by
  rw [get,Pointer.parse,parsed,mapError_ok,ok_bind,resolve]
  cases place.walk? pointer.tokens <;> rfl

theorem get_of_no_pointer {path : String} (unparsed : Pointer.ofText? path = none) (place : Pointable) :
    place.get path = .error (.invalid (.invalidPointer path)) := by
  rw [get,Pointer.parse,unparsed]
  rfl

theorem get_eq_ok_iff {place : Pointable} {path : String} {value : Value} :
    place.get path = .ok value ↔ ∃ pointer target,
      Pointer.ofText? path = some pointer ∧ place.walk? pointer.tokens = some target ∧ target.toValue = .ok value := by
  cases parsed : Pointer.ofText? path with
  | none => simp [get_of_no_pointer parsed]
  | some pointer =>
    rw [get_of_pointer parsed]
    constructor
    · intro found
      split at found
      · contradiction
      next target walked => exact ⟨pointer,target,rfl,walked,mapError_eq_ok_iff.mp found⟩
    · rintro ⟨_,target,⟨⟩,walked,shown⟩
      rw [walked]
      exact mapError_eq_ok_iff.mpr shown

/-- What the JSON has at a path the value has there too. What the value has at a path the
JSON has along the names on the wire. Without records there is no difference, in errors either. -/
theorem get_agrees_with_json {root : Pointable} {value : Value} (formed : root.WellFormed)
    (written : root.toValue = .ok value) (path : String) :
    (∀ found, (Pointable.json value).get path = .ok found → root.get path = .ok found) ∧
      (∀ found, root.get path = .ok found → (Pointable.json value).get (root.wirePath path) = .ok found) ∧
      (root.Recordless → (Pointable.json value).get path = root.get path) := by
  have mirrored : Shadow root (.json value) := .of formed written
  refine ⟨?_,?_,?_⟩
  · intro found inJson
    obtain ⟨pointer,target,parsed,walked,same⟩ := get_eq_ok_iff.mp inJson
    obtain ⟨origin,reached,⟨_,shown⟩⟩ := mirrored.walk_of_json walked
    cases same
    exact get_eq_ok_iff.mpr ⟨pointer,origin,parsed,reached,shown⟩
  · intro found inRoot
    obtain ⟨pointer,origin,parsed,walked,shown⟩ := get_eq_ok_iff.mp inRoot
    obtain ⟨target,reached,⟨_,same⟩⟩ := mirrored.walk_to_json walked
    cases same.symm.trans shown
    rw [wirePath,parsed]
    exact get_eq_ok_iff.mpr ⟨_,_,Pointer.ofText?_text _,reached,rfl⟩
  · intro plain
    cases parsed : Pointer.ofText? path with
    | none => rw [get_of_no_pointer parsed,get_of_no_pointer parsed]
    | some pointer =>
      rw [get_of_pointer parsed,get_of_pointer parsed]
      have reached := mirrored.walk_plain plain pointer.tokens
      cases inRoot : root.walk? pointer.tokens with
      | none =>
        rw [inRoot,none_rel_iff] at reached
        rw [reached]
      | some origin =>
        rw [inRoot] at reached
        obtain ⟨target,inJson,⟨_,shown⟩⟩ := some_rel_iff.mp reached
        simp only [inJson,shown,toValue]

theorem get_agrees_with_json_crossed_names :
    ∃ (crossed plain : Pointable) (value written : Value),
      crossed.WellFormed ∧ crossed.toValue = .ok value ∧ crossed.get "/x" = .ok .null ∧
        (Pointable.json value).get (crossed.wirePath "/email_ids/0") = .ok (.string "M1") ∧
        crossed.wirePath "/email_ids/0" = "/emailIds/0" ∧
      plain.WellFormed ∧ plain.toValue = .ok written ∧ plain.Recordless ∧
        (Pointable.json written).get "/b/0" = plain.get "/b/0" := by
  let crossed : Pointable := .record
    [(⟨"emailIds","email_ids"⟩,.present (.sequence [.leaf (.text "M1")])),
     (⟨"y","x"⟩,.leaf (.bool true)),(⟨"x","y"⟩,.absent)]
  let plain : Pointable := .map [("b",.sequence [.leaf (.double none)]),("a",.json (.object []))]
  have crossedFormed : crossed.WellFormed := by
    refine .record (by decide) ?_
    simp only [List.forall_mem_cons]
    exact ⟨.present (.sequence (by simp [WellFormed.leaf])),.leaf _,.absent,by simp⟩
  have plainFormed : plain.WellFormed := by
    refine .map (by decide) ?_
    simp only [List.forall_mem_cons]
    exact ⟨.sequence (by simp [WellFormed.leaf]),.json _,by simp⟩
  have recordless : plain.Recordless := by
    refine .map ?_
    simp only [List.forall_mem_cons]
    exact ⟨.sequence (by simp [Recordless.leaf]),.json _,by simp⟩
  refine ⟨crossed,plain,_,_,crossedFormed,rfl,?_,?_,by decide,plainFormed,rfl,recordless,?_⟩
  · exact (get_agrees_with_json crossedFormed rfl "/x").1 _ rfl
  · exact (get_agrees_with_json crossedFormed rfl "/email_ids/0").2.1 _ rfl
  · exact (get_agrees_with_json plainFormed rfl "/b/0").2.2 recordless

end Pointable
end Jmap
