import Jmap.Proofs.Json.Meaning
import Jmap.Proofs.Json.Members

/-! Texts that are objects, with their members beside them: the name that a key stands for,
however it is spelled, and the text of the value. -/
namespace Jmap.Json
open Outcome Grammar

def LabelText (name : String) (cs : List Char) : Prop :=
  ∃ before key beforeColon afterColon, before ∈ gap ∧ StringText key name ∧ beforeColon ∈ gap ∧ afterColon ∈ gap ∧
    cs = before ++ (key ++ (beforeColon ++ ':' :: afterColon))

inductive NamedMembers : List (String × List Char) → List Char → Prop where
  | last {name : String} {front part after : List Char} (label : LabelText name front) (value : ValueText part)
    (blank : after ∈ gap) : NamedMembers [(name,part)] (front ++ (part ++ after))
  | more {name : String} {front part after rest : List Char} {members : List (String × List Char)}
    (label : LabelText name front) (value : ValueText part) (blank : after ∈ gap) (later : NamedMembers members rest) :
    NamedMembers ((name,part) :: members) (front ++ (part ++ (after ++ ',' :: rest)))

inductive NamedObject : List (String × List Char) → List Char → Prop where
  | empty {inside : List Char} (blank : inside ∈ gap) : NamedObject [] ('\x7b' :: (inside ++ ['\x7d']))
  | members {members : List (String × List Char)} {cs : List Char} (named : NamedMembers members cs) :
    NamedObject members ('\x7b' :: (cs ++ ['\x7d']))

/-- An object between blanks, and its members. -/
def ObjectDocument (text : String) (members : List (String × List Char)) : Prop :=
  ∃ before object after, before ∈ gap ∧ NamedObject members object ∧ after ∈ gap ∧
    text.toList = before ++ (object ++ after)

theorem Literal.stringText_iff {cs : List Char} {name : String} :
    StringText cs name ↔ ∃ literal : Literal, literal.print = cs ∧ literal.text? = some name := by
  constructor
  · rintro ⟨inside,means,rfl⟩
    obtain ⟨literal,rfl,meaning⟩ := exists_literal means
    exact ⟨literal,rfl,by simp [text?,meaning]⟩
  · rintro ⟨literal,rfl,text⟩
    obtain ⟨cs,meaning,rfl⟩ := Option.map_eq_some_iff.mp text
    exact ⟨_,by simpa using means_of_meaning? meaning,rfl⟩

theorem labelText_iff {name : String} {cs : List Char} :
    LabelText name cs ↔ ∃ label : Label, label.print = cs ∧ label.key.text? = some name := by
  constructor
  · rintro ⟨_,_,_,_,blank,string,blankBehind,blankAfter,rfl⟩
    obtain ⟨before,rfl⟩ := (printed_gap _).mp blank
    obtain ⟨key,rfl,text⟩ := Literal.stringText_iff.mp string
    obtain ⟨beforeColon,rfl⟩ := (printed_gap _).mp blankBehind
    obtain ⟨afterColon,rfl⟩ := (printed_gap _).mp blankAfter
    exact ⟨⟨before,key,beforeColon,afterColon⟩,by simp [Label.print],text⟩
  · rintro ⟨label,rfl,text⟩
    have blank (between : Gap) : between.print ∈ gap := (printed_gap _).mpr ⟨between,rfl⟩
    exact ⟨_,_,_,_,blank label.before,Literal.stringText_iff.mpr ⟨_,rfl,text⟩,blank label.beforeColon,
      blank label.afterColon,by simp [Label.print]⟩

def printEntry (entry : String × Node) : String × List Char := (entry.1,entry.2.print)

theorem NamedMembers.exists_holds {members : List (String × List Char)} {cs : List Char}
    (named : NamedMembers members cs) : ∃ (parts : Members) (entries : List (String × Node)),
      parts.Holds entries ∧ entries.map printEntry = members ∧ parts.print = cs ++ ['\x7d'] := by
  induction named with
  | last front value blank =>
    obtain ⟨label,rfl,key⟩ := labelText_iff.mp front
    obtain ⟨part,closed,rfl⟩ := exists_node value
    obtain ⟨after,rfl⟩ := (printed_gap _).mp blank
    exact ⟨.last label part after,_,.last key closed,rfl,by simp [Members.print]⟩
  | more front value blank _ ih =>
    obtain ⟨label,rfl,key⟩ := labelText_iff.mp front
    obtain ⟨part,closed,rfl⟩ := exists_node value
    obtain ⟨after,rfl⟩ := (printed_gap _).mp blank
    obtain ⟨rest,entries,holds,rfl,same⟩ := ih
    exact ⟨.more label part after rest,_,.more key closed holds,rfl,by simp [Members.print,same]⟩

theorem Members.Holds.named {parts : Members} {entries : List (String × Node)} (holds : parts.Holds entries) :
    ∃ cs, NamedMembers (entries.map printEntry) cs ∧ parts.print = cs ++ ['\x7d'] := by
  induction holds with
  | @last label value after name key closed =>
    have front := labelText_iff.mpr ⟨label,rfl,key⟩
    exact ⟨_,.last front (value.valueText closed) ((printed_gap _).mpr ⟨after,rfl⟩),by simp [Members.print]⟩
  | @more label value after name rest entries key closed later ih =>
    have front := labelText_iff.mpr ⟨label,rfl,key⟩
    obtain ⟨cs,named,same⟩ := ih
    exact ⟨_,.more front (value.valueText closed) ((printed_gap _).mpr ⟨after,rfl⟩) named,by simp [Members.print,same]⟩

theorem NamedObject.exists_holds {members : List (String × List Char)} {cs : List Char} (named : NamedObject members cs) :
    ∃ (node : Node) (entries : List (String × Node)), node.Holds entries ∧ entries.map printEntry = members ∧
      node.print = cs := by
  cases named with
  | empty blank =>
    obtain ⟨inside,rfl⟩ := (printed_gap _).mp blank
    exact ⟨_,_,.empty inside,rfl,rfl⟩
  | members named =>
    obtain ⟨parts,entries,holds,same,printed⟩ := named.exists_holds
    exact ⟨_,_,.members holds,same,by rw [Node.print,printed]⟩

theorem Node.Holds.named {node : Node} {entries : List (String × Node)} (holds : node.Holds entries) :
    NamedObject (entries.map printEntry) node.print := by
  cases holds with
  | empty inside => exact .empty ((printed_gap _).mpr ⟨inside,rfl⟩)
  | members holds =>
    obtain ⟨cs,named,same⟩ := holds.named
    rw [Node.print,same]
    exact .members named

theorem objectDocument_iff {text : String} {members : List (String × List Char)} : ObjectDocument text members ↔
    (Document.ofText text).trailing = [] ∧
      ∃ entries, (Document.ofText text).root.Holds entries ∧ entries.map printEntry = members := by
  constructor
  · rintro ⟨_,_,_,blank,named,blankAfter,same⟩
    obtain ⟨node,entries,holds,members,rfl⟩ := named.exists_holds
    obtain ⟨root,ends⟩ := Document.of_padded holds.isClosed ⟨_,_,blank,blankAfter,same⟩
    rw [root]
    exact ⟨ends,entries,holds,members⟩
  · rintro ⟨ends,entries,holds,rfl⟩
    obtain ⟨before,after,blank,blankAfter,same⟩ := Document.padded holds.isClosed ends
    exact ⟨before,_,after,blank,holds.named,blankAfter,same⟩

def Members.entries? : Members → Option (List (String × Node))
  | .last label value _ => if value.isClosed then label.key.text?.map fun name => [(name,value)] else none
  | .more label value _ rest =>
    if value.isClosed then label.key.text?.bind fun name => rest.entries?.map ((name,value) :: ·) else none
  | .cut _ _ => none
  | .stop => none

def Node.entries? : Node → Option (List (String × Node))
  | .emptyObject _ => some []
  | .object members => members.entries?
  | _ => none

theorem Members.holds_of_entries? : ∀ {members : Members} {entries : List (String × Node)},
    members.entries? = some entries → members.Holds entries
  | .last label value after,entries,found => by
    obtain ⟨closed,named⟩ := Option.ite_none_right_eq_some.mp found
    obtain ⟨name,key,rfl⟩ := Option.map_eq_some_iff.mp named
    exact .last key closed
  | .more label value after rest,entries,found => by
    obtain ⟨closed,named⟩ := Option.ite_none_right_eq_some.mp found
    obtain ⟨name,key,later⟩ := Option.bind_eq_some_iff.mp named
    obtain ⟨others,holds,rfl⟩ := Option.map_eq_some_iff.mp later
    exact .more key closed (Members.holds_of_entries? holds)
  | .cut label value,entries,found => by contradiction
  | .stop,entries,found => by contradiction

theorem objectDocument_of_entries? {text : String} {members : List (String × List Char)}
    (ends : (Document.ofText text).trailing = [])
    (found : (Document.ofText text).root.entries?.map (·.map printEntry) = some members) : ObjectDocument text members := by
  obtain ⟨entries,read,same⟩ := Option.map_eq_some_iff.mp found
  refine objectDocument_iff.mpr ⟨ends,entries,?_,same⟩
  generalize (Document.ofText text).root = node at read
  cases node with
  | emptyObject inside =>
    cases read
    exact .empty inside
  | object members => exact .members (Members.holds_of_entries? read)
  | _ => contradiction

end Jmap.Json
