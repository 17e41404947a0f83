import Jmap.Json.Record
import Jmap.Json.Spelling
import Jmap.Json.Writable
import Jmap.Proofs.Json.Texts
import Jmap.Proofs.Outcome
import Jmap.Proofs.SortedMap

/-! Readers on the compact trees that writers build. Each goes through the items
or members from which the tree was built, in their order. -/
namespace Jmap.Json
open Outcome

variable {A R : Type}

@[simp] theorem Label.text?_ofText (key : String) : (Label.ofText key).key.text? = some key :=
  Literal.text?_ofText key

namespace Reader

/-- The text of a raw value is read as that value. -/
theorem ofText_text (reader : Reader A) (raw : Raw) : reader.ofText raw.text = reader.ofRaw raw := by
  have printed : Document.ofText raw.text = ⟨[],raw.node,[],[]⟩ := by
    rw [Raw.text,Node.text_eq,Document.ofText_print raw.closed]
  unfold ofText ofDocument ofRaw
  rw [printed]
  cases reader maxDepth raw.node <;> rfl

@[simp] theorem text_ofText (room : Nat) (content : String) : Reader.text room (.ofText content) = .ok content := by
  simp [Reader.text,Node.ofText,ofOption]

@[simp] theorem text_ofString (room : Nat) (content : String) :
    Reader.text room (Raw.ofString content).node = .ok content := text_ofText room content

@[simp] theorem raw_node (room : Nat) (raw : Raw) : Reader.raw room raw.node = .ok raw := dif_pos raw.closed

theorem nullable_of_ne (reader : Reader A) (room : Nat) {node : Node} (present : node ≠ .null) :
    reader.nullable room node = some <$> reader room node := by
  unfold nullable
  split
  · contradiction
  · rfl

end Reader

theorem Items.read_ofList (reader : Reader A) (room : Nat) (first : Node) (rest : List Node) :
    (Items.ofList first rest).read reader room = (first :: rest).mapM (reader room) := by
  induction rest generalizing first with
  | nil => simp [Items.ofList,Items.read]
  | cons second rest ih =>
    simp only [Items.ofList,Items.read,ih,List.mapM_cons]

theorem Reader.list_ofList (reader : Reader A) (room : Nat) (nodes : List Node) :
    reader.list (room + 1) (.ofList nodes) = nodes.mapM (reader room) := by
  cases nodes with
  | nil => rfl
  | cons first rest => exact Items.read_ofList reader room first rest

theorem Reader.list_map (reader : Reader A) (room : Nat) {values : List A} {raw : A → Raw}
    (reads : ∀ value ∈ values, reader room (raw value).node = .ok value) :
    reader.list (room + 1) (Raw.ofList (values.map raw)).node = .ok values := by
  change reader.list (room + 1) (.ofList ((values.map raw).map Raw.node)) = _
  rw [Reader.list_ofList,mapM_eq_ok_iff,List.map_map,List.forall₂_map_left_iff,List.forall₂_same]
  exact reads

theorem readMember_ofText (check : String → Except Defect Unit) (reader : Reader A) (room : Nat)
    (key : String) (value : Node) :
    readMember check reader room (.ofText key) value = (do check key; return (key,← reader room value)) := by
  simp [readMember]

theorem Members.read_ofList (check : String → Except Defect Unit) (reader : Reader A) (room : Nat)
    (key : String) (value : Node) (rest : List (String × Node)) :
    (Members.ofList key value rest).read check reader room =
      ((key,value) :: rest).mapM fun member => readMember check reader room (.ofText member.1) member.2 := by
  induction rest generalizing key value with
  | nil => simp [Members.ofList,Members.read]
  | cons second rest ih =>
    simp only [Members.ofList,Members.read,ih,List.mapM_cons]

theorem Reader.checkedMap_ofMembers (check : String → Except Defect Unit) (reader : Reader A) (room : Nat)
    (members : List (String × Node)) :
    reader.checkedMap check (room + 1) (.ofMembers members) =
      SortedMap.ofList <$> members.mapM fun member => readMember check reader room (.ofText member.1) member.2 := by
  cases members with
  | nil => rfl
  | cons first rest =>
    change SortedMap.ofList <$> (Members.ofList first.1 first.2 rest).read check reader room = _
    rw [Members.read_ofList]

theorem encodeMembers_eq_ok_iff {members : List (String × Except Defect Raw)} {raw : Raw} :
    encodeMembers members = .ok raw ↔ ∃ written,
      List.Forall₂ (fun member part => member.1 = part.1 ∧ member.2 = .ok part.2) members written ∧
        Raw.ofMembers written = raw := by
  have paired : ∀ (member : String × Except Defect Raw) (part : String × Raw),
      (member.1,·) <$> member.2 = .ok part ↔ member.1 = part.1 ∧ member.2 = .ok part.2 := by
    rintro ⟨key,value⟩ ⟨name,raw⟩
    cases value <;> simp
  simp only [encodeMembers,map_eq_ok_iff,mapM_eq_ok_iff,paired]

theorem encodeMembers_map {entries : List (String × A)} {written : String × A → Except Defect Raw} {raw : String × A → Raw}
    (encoded : ∀ entry ∈ entries, written entry = .ok (raw entry)) :
    encodeMembers (entries.map fun entry => (entry.1,written entry)) =
      .ok (.ofMembers (entries.map fun entry => (entry.1,raw entry))) := by
  refine encodeMembers_eq_ok_iff.mpr ⟨_,?_,rfl⟩
  rw [List.forall₂_map_left_iff,List.forall₂_map_right_iff,List.forall₂_same]
  exact fun entry member => ⟨rfl,encoded entry member⟩

theorem encode_sortedMap [Writable A] (map : SortedMap A) :
    encode map = encodeMembers (map.entries.map fun entry => (entry.1,encode entry.2)) := by
  rw [encodeMembers,List.mapM_map]
  rfl

/-- A map is read back when each key passes its check and each value is read back. -/
theorem Reader.checkedMap_encoded {check : String → Except Defect Unit} {reader : Reader A} {room : Nat}
    {map : SortedMap A} {written : String × A → Except Defect Raw} {raw : Raw}
    (rereads : ∀ entry ∈ map.entries, ∀ part, written entry = .ok part →
      check entry.1 = .ok () ∧ reader room part.node = .ok entry.2)
    (encoded : encodeMembers (map.entries.map fun entry => (entry.1,written entry)) = .ok raw) :
    reader.checkedMap check (room + 1) raw.node = .ok map := by
  obtain ⟨parts,related,rfl⟩ := encodeMembers_eq_ok_iff.mp encoded
  rw [List.forall₂_map_left_iff] at related
  change reader.checkedMap check (room + 1) (.ofMembers (parts.map fun member => (member.1,member.2.node))) = _
  rw [Reader.checkedMap_ofMembers,map_eq_ok_iff]
  refine ⟨map.entries,?_,SortedMap.ofList_entries map⟩
  rw [mapM_eq_ok_iff,List.forall₂_map_left_iff]
  clear encoded
  generalize map.entries = entries at rereads related ⊢
  induction related with
  | nil => exact .nil
  | @cons entry part entries parts head tail ih =>
    obtain ⟨same,encoded⟩ := head
    obtain ⟨checked,read⟩ := rereads entry (by simp) part.2 encoded
    have member : readMember check reader room (.ofText part.1) part.2.node = .ok entry := by
      simp [readMember_ofText,← same,checked,read]
    exact .cons member (ih fun other inside => rereads other (by simp [inside]))

theorem Reader.list_encoded [Writable A] {reader : Reader A} {room : Nat} {items : List A} {raw : Raw}
    (rereads : ∀ item ∈ items, ∀ part, encode item = .ok part → reader room part.node = .ok item)
    (encoded : encode items = .ok raw) : reader.list (room + 1) raw.node = .ok items := by
  obtain ⟨parts,walked,rfl⟩ := map_eq_ok_iff.mp encoded
  change reader.list (room + 1) (.ofList (parts.map Raw.node)) = _
  rw [Reader.list_ofList,mapM_eq_ok_iff,List.forall₂_map_left_iff]
  rw [mapM_eq_ok_iff] at walked
  clear encoded
  induction walked with
  | nil => exact .nil
  | @cons item part items parts head tail ih =>
    exact .cons (rereads item (by simp) part head) (ih fun other inside => rereads other (by simp [inside]))

variable {fields : List (RecordField R)} {room : Nat}

def readNamed (fields : List (RecordField R)) (room : Nat) (state : Progress R) (member : String × Node) :
    Except Defect (Progress R) :=
  readField fields room (.ofText member.1) member.2 state

theorem Members.readFields_ofList (state : Progress R) (key : String) (value : Node)
    (rest : List (String × Node)) :
    (Members.ofList key value rest).readFields fields room state =
      ((key,value) :: rest).foldlM (readNamed fields room) state := by
  induction rest generalizing key value state with
  | nil => simp [Members.ofList,Members.readFields,readNamed]
  | cons second rest ih =>
    rw [Members.ofList,Members.readFields,List.foldlM_cons]
    congr 1
    funext next
    exact ih next second.1 second.2

theorem Reader.record_ofMembers (start : R) (members : List (String × Node)) :
    Reader.record fields start (room + 1) (.ofMembers members) =
      members.foldlM (readNamed fields room) ⟨[],start⟩ >>= finish fields := by
  cases members with
  | nil => rfl
  | cons first rest =>
    change (Members.ofList first.1 first.2 rest).readFields fields room ⟨[],start⟩ >>= finish fields = _
    rw [Members.readFields_ofList]

end Jmap.Json
