import Jmap.Json.Document
import Jmap.Json.Value

/-! Whole JSON texts, kept as they are spelled, and the compact ones that
encoders build. -/
namespace Jmap.Json

theorem Items.ofList_isClosed (first : Node) (rest : List Node) (closed : ∀ node ∈ first :: rest, node.isClosed) :
    (Items.ofList first rest).isClosed := by
  induction rest generalizing first with
  | nil => simpa [Items.ofList,Items.isClosed] using closed
  | cons second rest ih =>
    simp only [Items.ofList,Items.isClosed,Bool.and_eq_true]
    exact ⟨closed first (by simp),ih second fun node member => closed node (List.mem_cons_of_mem _ member)⟩

theorem Members.ofList_isClosed (key : String) (value : Node) (rest : List (String × Node))
    (closed : ∀ member ∈ (key,value) :: rest, member.2.isClosed) :
    (Members.ofList key value rest).isClosed := by
  induction rest generalizing key value with
  | nil => simpa [Members.ofList,Members.isClosed] using closed
  | cons second rest ih =>
    simp only [Members.ofList,Members.isClosed,Bool.and_eq_true]
    exact ⟨closed (key,value) (by simp),ih second.1 second.2 fun entry member => closed entry (List.mem_cons_of_mem _ member)⟩

theorem Node.ofList_isClosed (nodes : List Node) (closed : ∀ node ∈ nodes, node.isClosed) :
    (Node.ofList nodes).isClosed := by
  cases nodes with
  | nil => rfl
  | cons first rest => exact Items.ofList_isClosed first rest closed

theorem Node.ofMembers_isClosed (members : List (String × Node)) (closed : ∀ member ∈ members, member.2.isClosed) :
    (Node.ofMembers members).isClosed := by
  cases members with
  | nil => rfl
  | cons first rest => exact Members.ofList_isClosed first.1 first.2 rest closed

mutual
theorem Value.toNode_isClosed : ∀ value : Value, value.toNode.isClosed
  | .null => rfl
  | .boolean _ => rfl
  | .number _ => rfl
  | .string _ => rfl
  | .array items => Node.ofList_isClosed _ (Value.toNodes_isClosed items)
  | .object members => Node.ofMembers_isClosed _ (Value.toMembers_isClosed members)
theorem Value.toNodes_isClosed : ∀ items : List Value, ∀ node ∈ Value.toNodes items, node.isClosed
  | [],_,member => by simp [Value.toNodes] at member
  | item :: rest,node,member => by
    rcases List.mem_cons.mp member with rfl | inside
    · exact item.toNode_isClosed
    · exact Value.toNodes_isClosed rest node inside
theorem Value.toMembers_isClosed : ∀ members : List (String × Value),
    ∀ member ∈ Value.toMembers members, member.2.isClosed
  | [],_,member => by simp [Value.toMembers] at member
  | (key,value) :: rest,entry,member => by
    rcases List.mem_cons.mp member with rfl | inside
    · exact value.toNode_isClosed
    · exact Value.toMembers_isClosed rest entry inside
end

/-- One JSON value with its spelling, without blanks around it. -/
structure Raw where
  node : Node
  closed : node.isClosed
  deriving DecidableEq

namespace Raw

def text (raw : Raw) : String := raw.node.text

theorem toList_text (raw : Raw) : raw.text.toList = raw.node.print := by
  rw [text,Node.text_eq,String.toList_ofList]

def isObject (raw : Raw) : Bool := raw.node.isObject

/-- Blanks around the value are dropped. -/
def ofText? (text : String) : Option Raw :=
  let document := Document.ofText text
  if closed : document.root.isClosed then
    if document.trailing.isEmpty then some ⟨document.root,closed⟩ else none
  else none

def ofValue (value : Value) : Raw := ⟨value.toNode,value.toNode_isClosed⟩

def null : Raw := ⟨.null,rfl⟩

def ofBool (value : Bool) : Raw := ⟨.boolean value,rfl⟩

def ofString (text : String) : Raw := ⟨.ofText text,rfl⟩

def ofInt (n : Int) : Raw := ⟨.ofInt n,rfl⟩

def ofList (items : List Raw) : Raw :=
  ⟨.ofList (items.map Raw.node),Node.ofList_isClosed _ (by
    intro node member
    obtain ⟨raw,_,rfl⟩ := List.mem_map.mp member
    exact raw.closed)⟩

def ofMembers (members : List (String × Raw)) : Raw :=
  ⟨.ofMembers (members.map fun member => (member.1,member.2.node)),Node.ofMembers_isClosed _ (by
    intro entry member
    obtain ⟨raw,_,rfl⟩ := List.mem_map.mp member
    exact raw.2.closed)⟩

end Raw
end Jmap.Json
