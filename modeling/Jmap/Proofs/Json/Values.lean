import Jmap.Proofs.Json.Integers
import Jmap.Proofs.Json.Reading
import Jmap.Proofs.Json.Rereading

/-! Values that were read, written and read again. Texts, keys and integers come back
as they are, and nothing is nested more deeply than before; only a floating-point
number can be read from its shortest literal as one of its neighbours. -/
namespace Jmap

/-- Read from its shortest literal as itself. -/
def Binary64.Survives (x : Binary64) : Prop := Json.Number.ofLiteral? (.ofBinary64 x) = some (.double x)

instance (x : Binary64) : Decidable x.Survives := inferInstanceAs (Decidable (_ = _))

end Jmap

namespace Jmap.Json
open Outcome

mutual
/-- The floating-point numbers in a value. -/
def Value.doubles : Value → List Binary64
  | .number (.double x) => [x]
  | .array items => Value.itemDoubles items
  | .object members => Value.memberDoubles members
  | _ => []
def Value.itemDoubles : List Value → List Binary64
  | [] => []
  | item :: rest => item.doubles ++ Value.itemDoubles rest
def Value.memberDoubles : List (String × Value) → List Binary64
  | [] => []
  | (_,value) :: rest => value.doubles ++ Value.memberDoubles rest
end

theorem Value.itemDoubles_eq (items : List Value) : itemDoubles items = items.flatMap doubles := by
  induction items with
  | nil => rfl
  | cons item items ih => rw [itemDoubles,ih,List.flatMap_cons]

theorem Value.memberDoubles_eq (members : List (String × Value)) :
    memberDoubles members = members.flatMap fun member => member.2.doubles := by
  induction members with
  | nil => rfl
  | cons member members ih => rw [memberDoubles,ih,List.flatMap_cons]

theorem Value.toNodes_eq_map (items : List Value) : Value.toNodes items = items.map Value.toNode := by
  induction items with
  | nil => rfl
  | cons item items ih => rw [Value.toNodes,ih,List.map_cons]

theorem Value.toMembers_eq_map (members : List (String × Value)) :
    Value.toMembers members = members.map fun member => (member.1,member.2.toNode) := by
  induction members with
  | nil => rfl
  | cons member members ih => rw [Value.toMembers,ih]; rfl

theorem Raw.ofMembers_values (map : SortedMap Value) :
    ofMembers (map.entries.map fun entry => (entry.1,ofValue entry.2)) = ofValue (.ofMap map) := by
  simp only [ofMembers,ofValue,Value.ofMap,Value.toNode,Value.toMembers_eq_map,List.map_map]
  rfl

theorem encode_values (map : SortedMap Value) : encode map = .ok (.ofValue (.ofMap map)) := by
  rw [encode_sortedMap,← Raw.ofMembers_values]
  exact encodeMembers_map fun _ _ => rfl

/-- Reading values inside a list or a map is reading the list or map as a value. -/
theorem Items.read_value (room : Nat) (items : Items) :
    items.read Reader.value room = Reader.ofOption (items.values? room) := by
  cases items with
  | last before item after =>
    rw [Items.read,Items.values?,Reader.value]
    cases item.value? room <;> rfl
  | more before item after rest =>
    rw [Items.read,Items.values?,Items.read_value room rest,Reader.value]
    cases item.value? room <;> cases rest.values? room <;> rfl
  | cut before item =>
    rw [Items.read,Items.values?,Reader.value]
    cases item.value? room <;> rfl

theorem readMember_value (room : Nat) (label : Label) (value : Node) :
    readMember (fun _ => .ok ()) Reader.value room label value =
      Reader.ofOption (do return (← label.key.text?,← value.value? room)) := by
  rw [readMember,Reader.value]
  cases label.key.text? <;> cases value.value? room <;> rfl

theorem Members.read_value (room : Nat) (members : Members) :
    members.read (fun _ => .ok ()) Reader.value room = Reader.ofOption (members.values? room) := by
  cases members with
  | last label value after =>
    rw [Members.read,Members.values?,readMember_value]
    cases label.key.text? <;> cases value.value? room <;> rfl
  | more label value after rest =>
    rw [Members.read,Members.values?,readMember_value,Members.read_value room rest]
    cases label.key.text? <;> cases value.value? room <;> cases rest.values? room <;> rfl
  | cut label value =>
    rw [Members.read,Members.values?,readMember_value]
    cases label.key.text? <;> cases value.value? room <;> rfl
  | stop => rfl

theorem Reader.value_array (room : Nat) (items : Items) :
    Reader.value room (.array items) = .array <$> Reader.value.list room (.array items) := by
  cases room with
  | zero => rfl
  | succ room =>
    rw [Reader.list,Items.read_value,Reader.value,Node.value?]
    cases items.values? room <;> rfl

theorem Reader.value_object (room : Nat) (members : Members) :
    Reader.value room (.object members) = Value.ofMap <$> Reader.value.sortedMap room (.object members) := by
  cases room with
  | zero => rfl
  | succ room =>
    rw [Reader.sortedMap,Reader.checkedMap,Members.read_value,Reader.value,Node.value?]
    cases members.values? room <;> rfl

theorem Reader.value_of_list {room : Nat} {node : Node} {values : List Value}
    (read : Reader.value.list room node = .ok values) : Reader.value room node = .ok (.array values) := by
  cases node with
  | array items => rw [Reader.value_array,read]; rfl
  | emptyArray =>
    cases room <;> cases read
    rfl
  | _ => cases room <;> contradiction

theorem Reader.value_of_sortedMap {room : Nat} {node : Node} {map : SortedMap Value}
    (read : Reader.value.sortedMap room node = .ok map) : Reader.value room node = .ok (.ofMap map) := by
  cases node with
  | object members => rw [Reader.value_object,read]; rfl
  | emptyObject =>
    cases room <;> cases read
    rfl
  | _ => cases room <;> contradiction

def Value.asMap : Value → Except Defect (SortedMap Value)
  | .object members => .ok (.ofList members)
  | _ => .error .malformed

theorem Value.asMap_ofMap (map : SortedMap Value) : (ofMap map).asMap = .ok map :=
  congrArg _ (SortedMap.ofList_entries map)

theorem Value.asMap_eq_error {value : Value} {defect : Defect} (noMap : value.asMap = .error defect) :
    defect = .malformed := by
  cases value <;> cases noMap
  all_goals rfl

/-- Of the values that are read an object is a map, and no other one is. -/
theorem Reader.sortedMap_eq_value (room : Nat) (node : Node) :
    Reader.value.sortedMap room node = Reader.value room node >>= Value.asMap := by
  have other (unread : Reader.value.sortedMap room node = .error .malformed)
      (noMap : ∀ value, Reader.value room node = .ok value → value.asMap = .error .malformed) :
      Reader.value.sortedMap room node = Reader.value room node >>= Value.asMap := by
    cases read : Reader.value room node with
    | ok value => rw [unread,ok_bind,noMap value read]
    | error defect => rw [unread,Uniform.value room node defect read,error_bind]
  cases node with
  | object members =>
    rw [Reader.value_object]
    cases read : Reader.value.sortedMap room (.object members) with
    | ok map => rw [map_ok,ok_bind,Value.asMap_ofMap]
    | error => rfl
  | emptyObject => cases room <;> rfl
  | array items =>
    refine other (by cases room <;> rfl) fun value read => ?_
    rw [Reader.value_array] at read
    obtain ⟨items,_,rfl⟩ := map_eq_ok_iff.mp read
    rfl
  | emptyArray =>
    refine other (by cases room <;> rfl) fun value read => ?_
    cases room <;> cases read
    rfl
  | number literal =>
    refine other (by cases room <;> rfl) fun value read => ?_
    obtain ⟨number,_,rfl⟩ := Option.map_eq_some_iff.mp (ofOption_eq_ok_iff.mp read)
    rfl
  | string literal =>
    refine other (by cases room <;> rfl) fun value read => ?_
    obtain ⟨text,_,rfl⟩ := Option.map_eq_some_iff.mp (ofOption_eq_ok_iff.mp read)
    rfl
  | null | boolean =>
    refine other (by cases room <;> rfl) fun value read => ?_
    cases read
    rfl
  | broken => cases room <;> rfl

/-- A map is read back when each of its values is, one level further down. -/
theorem Reader.sortedMap_toNode_iff {room : Nat} {map : SortedMap Value} :
    Reader.value.sortedMap (room + 1) (Value.ofMap map).toNode = .ok map ↔
      ∀ entry ∈ map.entries, Reader.value room entry.2.toNode = .ok entry.2 := by
  have paired : ∀ entry read : String × Value,
      readMember (fun _ => .ok ()) Reader.value room (.ofText entry.1) entry.2.toNode = .ok read ↔
        entry.1 = read.1 ∧ Reader.value room entry.2.toNode = .ok read.2 := by
    rintro ⟨key,value⟩ ⟨name,result⟩
    rw [readMember_ofText]
    cases Reader.value room value.toNode <;> simp
  have walked : Reader.value.sortedMap (room + 1) (Value.ofMap map).toNode =
      SortedMap.ofList <$> map.entries.mapM fun entry =>
        readMember (fun _ => .ok ()) Reader.value room (.ofText entry.1) entry.2.toNode := by
    change Reader.checkedMap _ Reader.value (room + 1) (.ofMembers (Value.toMembers map.entries)) = _
    rw [Reader.checkedMap_ofMembers,Value.toMembers_eq_map,List.mapM_map]
    rfl
  rw [walked,map_eq_ok_iff]
  constructor
  · rintro ⟨read,related,same⟩
    replace related := (mapM_eq_ok_iff.mp related).imp fun entry result => (paired entry result).mp
    have sorted := SortedMap.sorted_of_keys (related.imp fun _ _ both => both.1) map.sorted
    have unchanged : read = map.entries := by rw [← same,SortedMap.entries_ofList sorted]
    rw [unchanged,List.forall₂_same] at related
    exact fun entry member => (related entry member).2
  · intro reads
    refine ⟨map.entries,?_,SortedMap.ofList_entries map⟩
    rw [mapM_eq_ok_iff,List.forall₂_same]
    exact fun entry member => (paired entry entry).mpr ⟨rfl,reads entry member⟩

/-- Values as reading leaves them: integers of 64 bits, numbers that survive, sorted
objects, and no more arrays and objects inside each other than there is room for. -/
inductive Value.Settled : Nat → Value → Prop where
  | null {room : Nat} : Settled room .null
  | boolean {room : Nat} {value : Bool} : Settled room (.boolean value)
  | integer {room : Nat} {n : Int} (fits : FitsWord n) : Settled room (.number (.integer n))
  | double {room : Nat} {x : Binary64} (survives : x.Survives) : Settled room (.number (.double x))
  | string {room : Nat} {text : String} : Settled room (.string text)
  | array {room : Nat} {items : List Value} (settled : ∀ item ∈ items, Settled room item) :
    Settled (room + 1) (.array items)
  | object {room : Nat} {members : List (String × Value)}
    (sorted : members.Pairwise fun left right => left.1 < right.1)
    (settled : ∀ entry ∈ members, Settled room entry.2) : Settled (room + 1) (.object members)

theorem Value.settled_of_read (room : Nat) (node : Node) (value : Value) (read : Reader.value room node = .ok value)
    (survive : ∀ x ∈ value.doubles, x.Survives) : value.Settled room := by
  -- By the room that is left: the entry that counts in a map is found by its key, not by the shape of the tree.
  cases node with
  | null => cases read; exact .null
  | boolean => cases read; exact .boolean
  | number literal =>
    cases number : Number.ofLiteral? literal with
    | none => simp [Reader.value,Reader.ofOption,Node.value?,number] at read
    | some number' =>
      simp only [Reader.value,Reader.ofOption,Node.value?,number] at read
      cases read
      cases number' with
      | integer n => exact .integer (Number.fitsWord_of_ofLiteral? number)
      | double x => exact .double (survive x (by simp [doubles]))
  | string literal =>
    cases text : literal.text? with
    | none => simp [Reader.value,Reader.ofOption,Node.value?,text] at read
    | some text' =>
      simp only [Reader.value,Reader.ofOption,Node.value?,text] at read
      cases read
      exact .string
  | emptyArray =>
    cases room <;> cases read
    exact .array (by simp)
  | array items =>
    rw [Reader.value_array] at read
    obtain ⟨values,listed,rfl⟩ := map_eq_ok_iff.mp read
    obtain ⟨nodes,inner,rfl,_,related⟩ := Reader.of_list listed
    refine .array fun item member => ?_
    obtain ⟨part,_,inside⟩ := exists_left_of_mem related member
    refine settled_of_read inner part item inside fun x found => survive x ?_
    rw [doubles,itemDoubles_eq]
    exact List.mem_flatMap.mpr ⟨item,member,found⟩
  | emptyObject =>
    cases room <;> cases read
    exact .object .nil (by simp)
  | object members =>
    rw [Reader.value_object] at read
    obtain ⟨map,listed,rfl⟩ := map_eq_ok_iff.mp read
    obtain ⟨inner,rfl,_⟩ := Reader.of_checkedMap listed
    have gave : (Reader.sortedMap Reader.value).Gives (inner + 1) .empty (some (.object members)) map := listed
    refine .object map.sorted fun entry member => ?_
    obtain ⟨_,part,_,inside⟩ := gave.of_mem member
    refine settled_of_read inner part entry.2 inside fun x found => survive x ?_
    rw [ofMap,doubles,memberDoubles_eq]
    exact List.mem_flatMap.mpr ⟨entry,member,found⟩
  | broken => contradiction
termination_by room

theorem Value.Settled.read_toNode {room : Nat} {value : Value} (settled : value.Settled room) :
    Reader.value room value.toNode = .ok value := by
  induction settled with
  | null => rfl
  | boolean => rfl
  | integer fits => simp [Reader.value,toNode,Node.value?,Number.toLiteral,Number.ofLiteral?_ofInt fits,Reader.ofOption]
  | @double _ x survives =>
    have same : Number.ofLiteral? (.ofBinary64 x) = some (.double x) := survives
    simp [Reader.value,toNode,Node.value?,Number.toLiteral,same,Reader.ofOption]
  | string => simp [Reader.value,toNode,Node.ofText,Node.value?,Reader.ofOption]
  | @array room items settled ih =>
    have listed : Reader.value.list (room + 1) (.ofList (Value.toNodes items)) = .ok items := by
      rw [Reader.list_ofList,Value.toNodes_eq_map,mapM_eq_ok_iff,List.forall₂_map_left_iff,List.forall₂_same]
      exact ih
    exact Reader.value_of_list listed
  | @object room members sorted settled ih =>
    let map : SortedMap Value := ⟨members,sorted⟩
    have listed : Reader.value.sortedMap (room + 1) (ofMap map).toNode = .ok map := Reader.sortedMap_toNode_iff.mpr ih
    exact Reader.value_of_sortedMap listed

/-- A value that was read is read from its compact tree too, with the same room. -/
theorem Reader.value_toNode {room : Nat} {node : Node} {value : Value} (read : Reader.value room node = .ok value)
    (survive : ∀ x ∈ value.doubles, x.Survives) : Reader.value room value.toNode = .ok value :=
  (Value.settled_of_read room node value read survive).read_toNode

/-- What was received is also the value of that part, an empty one where there is none. -/
theorem Reader.Gives.value {room : Nat} {part : Option Node} {map : SortedMap Value}
    (gave : (Reader.sortedMap Reader.value).Gives room .empty part map) :
    Reader.value.Gives room (.ofMap .empty) part (.ofMap map) := by
  cases part with
  | none => exact congrArg _ gave
  | some node => exact Reader.value_of_sortedMap gave

/-- A map that was read, or what is kept of it, is read from its compact tree too. -/
theorem Reader.Gives.sortedMap_toNode {room : Nat} {part : Option Node} {map kept : SortedMap Value}
    (gave : (Reader.sortedMap Reader.value).Gives (room + 1) .empty part map)
    (within : ∀ entry ∈ kept.entries, entry ∈ map.entries) (survive : ∀ x ∈ (Value.ofMap kept).doubles, x.Survives) :
    Reader.value.sortedMap (room + 1) (Value.ofMap kept).toNode = .ok kept := by
  refine Reader.sortedMap_toNode_iff.mpr fun entry member => ?_
  obtain ⟨_,node,_,read⟩ := gave.of_mem (within entry member)
  refine Reader.value_toNode read fun x found => survive x ?_
  rw [Value.ofMap,Value.doubles,Value.memberDoubles_eq]
  exact List.mem_flatMap.mpr ⟨entry,member,found⟩

end Jmap.Json
