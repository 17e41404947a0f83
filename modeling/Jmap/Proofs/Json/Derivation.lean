import Jmap.Proofs.Json.Grammar
import Jmap.Proofs.Json.Reading

/-! Trees that break off nowhere are derivations in the grammar: they print its texts and
no others, each text from one tree. -/
namespace Jmap.Json
open Grammar

mutual
theorem Node.valueText : ∀ node : Node, node.isClosed → ValueText node.print
  | .null,_ => .null
  | .boolean true,_ => .true
  | .boolean false,_ => .false
  | .number literal,_ => .number ((printed_number _).mpr ⟨literal,rfl⟩)
  | .string literal,_ => .string ((printed_string _).mpr ⟨literal,rfl⟩)
  | .emptyArray inside,_ => .array (.empty ((printed_gap _).mpr ⟨inside,rfl⟩))
  | .array items,closed => by
    obtain ⟨cs,text,same⟩ := items.itemsText closed
    rw [Node.print,same]
    exact .array (.items text)
  | .emptyObject inside,_ => .object (.empty ((printed_gap _).mpr ⟨inside,rfl⟩))
  | .object members,closed => by
    obtain ⟨cs,text,same⟩ := members.membersText closed
    rw [Node.print,same]
    exact .object (.members text)
theorem Items.itemsText : ∀ items : Items, items.isClosed →
    ∃ cs, ItemsText (items.toList.map Node.print) cs ∧ items.print = cs ++ [']']
  | .last before item after,closed => by
    have blank := (printed_gap _).mpr ⟨before,rfl⟩
    have blankAfter := (printed_gap _).mpr ⟨after,rfl⟩
    exact ⟨_,.last blank (item.valueText closed) blankAfter,by simp [Items.print]⟩
  | .more before item after rest,closed => by
    simp only [Items.isClosed,Bool.and_eq_true] at closed
    have blank := (printed_gap _).mpr ⟨before,rfl⟩
    have blankAfter := (printed_gap _).mpr ⟨after,rfl⟩
    obtain ⟨cs,text,same⟩ := rest.itemsText closed.2
    exact ⟨_,.more blank (item.valueText closed.1) blankAfter text,by simp [Items.print,same]⟩
theorem Members.membersText : ∀ members : Members, members.isClosed →
    ∃ cs, MembersText cs ∧ members.print = cs ++ ['\x7d']
  | .last label value after,closed => by
    have key := (printed_label _).mpr ⟨label,rfl⟩
    have blank := (printed_gap _).mpr ⟨after,rfl⟩
    exact ⟨_,.last key (value.valueText closed) blank,by simp [Members.print]⟩
  | .more label value after rest,closed => by
    simp only [Members.isClosed,Bool.and_eq_true] at closed
    have key := (printed_label _).mpr ⟨label,rfl⟩
    have blank := (printed_gap _).mpr ⟨after,rfl⟩
    obtain ⟨cs,text,same⟩ := rest.membersText closed.2
    exact ⟨_,.more key (value.valueText closed.1) blank text,by simp [Members.print,same]⟩
end

mutual
theorem exists_node : ∀ {cs : List Char}, ValueText cs → ∃ node : Node, node.isClosed ∧ node.print = cs
  | _,.null => ⟨.null,rfl,rfl⟩
  | _,.true => ⟨.boolean true,rfl,rfl⟩
  | _,.false => ⟨.boolean false,rfl,rfl⟩
  | _,.number literal => by
    obtain ⟨literal,same⟩ := (printed_number _).mp literal
    exact ⟨.number literal,rfl,same⟩
  | _,.string literal => by
    obtain ⟨literal,same⟩ := (printed_string _).mp literal
    exact ⟨.string literal,rfl,same⟩
  | _,.array array => by
    obtain ⟨node,_,closed,_,_,same⟩ := exists_array array
    exact ⟨node,closed,same⟩
  | _,.object object => by
    obtain ⟨node,closed,_,same⟩ := exists_object object
    exact ⟨node,closed,same⟩
theorem exists_array : ∀ {parts : List (List Char)} {cs : List Char}, ArrayText parts cs →
    ∃ (node : Node) (nodes : List Node), node.isClosed ∧ node.items? = some nodes ∧ nodes.map Node.print = parts ∧
      node.print = cs
  | _,_,.empty blank => by
    obtain ⟨inside,rfl⟩ := (printed_gap _).mp blank
    exact ⟨.emptyArray inside,[],rfl,rfl,rfl,rfl⟩
  | _,_,.items items => by
    obtain ⟨items,closed,parts,same⟩ := exists_items items
    exact ⟨.array items,items.toList,closed,rfl,parts,by rw [Node.print,same]⟩
theorem exists_items : ∀ {parts : List (List Char)} {cs : List Char}, ItemsText parts cs →
    ∃ items : Items, items.isClosed ∧ items.toList.map Node.print = parts ∧ items.print = cs ++ [']']
  | _,_,.last blank value blankAfter => by
    obtain ⟨before,rfl⟩ := (printed_gap _).mp blank
    obtain ⟨after,rfl⟩ := (printed_gap _).mp blankAfter
    obtain ⟨item,closed,rfl⟩ := exists_node value
    exact ⟨.last before item after,closed,rfl,by simp [Items.print]⟩
  | _,_,.more blank value blankAfter later => by
    obtain ⟨before,rfl⟩ := (printed_gap _).mp blank
    obtain ⟨after,rfl⟩ := (printed_gap _).mp blankAfter
    obtain ⟨item,closed,rfl⟩ := exists_node value
    obtain ⟨rest,whole,rfl,same⟩ := exists_items later
    exact ⟨.more before item after rest,by simp [Items.isClosed,closed,whole],rfl,by simp [Items.print,same]⟩
theorem exists_object : ∀ {cs : List Char}, ObjectText cs →
    ∃ node : Node, node.isClosed ∧ node.isObject ∧ node.print = cs
  | _,.empty blank => by
    obtain ⟨inside,rfl⟩ := (printed_gap _).mp blank
    exact ⟨.emptyObject inside,rfl,rfl,rfl⟩
  | _,.members members => by
    obtain ⟨members,closed,same⟩ := exists_members members
    exact ⟨.object members,closed,rfl,by rw [Node.print,same]⟩
theorem exists_members : ∀ {cs : List Char}, MembersText cs →
    ∃ members : Members, members.isClosed ∧ members.print = cs ++ ['\x7d']
  | _,.last key value blank => by
    obtain ⟨label,rfl⟩ := (printed_label _).mp key
    obtain ⟨after,rfl⟩ := (printed_gap _).mp blank
    obtain ⟨part,closed,rfl⟩ := exists_node value
    exact ⟨.last label part after,closed,by simp [Members.print]⟩
  | _,.more key value blank later => by
    obtain ⟨label,rfl⟩ := (printed_label _).mp key
    obtain ⟨after,rfl⟩ := (printed_gap _).mp blank
    obtain ⟨part,closed,rfl⟩ := exists_node value
    obtain ⟨rest,whole,same⟩ := exists_members later
    exact ⟨.more label part after rest,by simp [Members.isClosed,closed,whole],by simp [Members.print,same]⟩
end

theorem Node.eq_of_print {left right : Node} (leftClosed : left.isClosed) (rightClosed : right.isClosed)
    (same : left.print = right.print) : left = right := by
  have scanned := Document.ofText_print leftClosed
  rw [same,Document.ofText_print rightClosed] at scanned
  cases scanned
  rfl

/-- The text is the part between blanks. -/
def Padded (text : String) (part : List Char) : Prop :=
  ∃ before after, before ∈ gap ∧ after ∈ gap ∧ text.toList = before ++ (part ++ after)

namespace Document

/-- Between blanks a tree that breaks off nowhere is what is read. -/
theorem of_padded {text : String} {node : Node} (closed : node.isClosed) (padded : Padded text node.print) :
    (ofText text).root = node ∧ (ofText text).trailing = [] := by
  obtain ⟨_,_,blank,blankAfter,same⟩ := padded
  obtain ⟨before,rfl⟩ := (printed_gap _).mp blank
  obtain ⟨after,rfl⟩ := (printed_gap _).mp blankAfter
  rw [ofText,same,ofChars_print before after closed]
  exact ⟨rfl,rfl⟩

theorem padded {text : String} (closed : (ofText text).root.isClosed) (ends : (ofText text).trailing = []) :
    Padded text (ofText text).root.print := by
  have source := print_ofText closed
  generalize ofText text = document at ends source
  refine ⟨_,_,(printed_gap _).mpr ⟨document.before,rfl⟩,(printed_gap _).mpr ⟨document.after,rfl⟩,?_⟩
  simp [← source,print,ends]

end Document

theorem Node.objectText_iff {node : Node} (closed : node.isClosed) : ObjectText node.print ↔ node.isObject := by
  constructor
  · intro text
    obtain ⟨other,whole,object,same⟩ := exists_object text
    rwa [← Node.eq_of_print whole closed same]
  · intro object
    cases node with
    | emptyObject inside => exact .empty ((printed_gap _).mpr ⟨inside,rfl⟩)
    | object members =>
      obtain ⟨cs,text,same⟩ := members.membersText closed
      rw [Node.print,same]
      exact .members text
    | _ => contradiction

theorem Node.arrayText_iff {node : Node} (closed : node.isClosed) {parts : List (List Char)} :
    ArrayText parts node.print ↔ ∃ nodes, node.items? = some nodes ∧ nodes.map Node.print = parts := by
  constructor
  · intro text
    obtain ⟨other,nodes,whole,items,parts,same⟩ := exists_array text
    rw [← Node.eq_of_print whole closed same]
    exact ⟨nodes,items,parts⟩
  · rintro ⟨nodes,items,rfl⟩
    cases node with
    | emptyArray inside =>
      cases items
      exact .empty ((printed_gap _).mpr ⟨inside,rfl⟩)
    | array nodes =>
      cases items
      obtain ⟨cs,text,same⟩ := nodes.itemsText closed
      rw [Node.print,same]
      exact .items text
    | _ => contradiction

namespace Raw

theorem text_injective : Function.Injective text := by
  intro left right same
  have read := left.ofText?_text
  rw [same,right.ofText?_text] at read
  exact (Option.some.inj read).symm

theorem valueText_iff {cs : List Char} : ValueText cs ↔ ∃ raw : Raw, raw.text.toList = cs := by
  constructor
  · intro text
    obtain ⟨node,closed,rfl⟩ := exists_node text
    exact ⟨⟨node,closed⟩,toList_text _⟩
  · rintro ⟨raw,rfl⟩
    rw [toList_text]
    exact raw.node.valueText raw.closed

theorem objectText_iff {raw : Raw} : ObjectText raw.text.toList ↔ raw.isObject := by
  rw [toList_text]
  exact Node.objectText_iff raw.closed

/-- Nothing but an object starts with a brace, so the first character tells. -/
theorem isObject_iff_head? (raw : Raw) : raw.isObject ↔ raw.text.toList.head? = some '\x7b' := by
  obtain ⟨node,closed⟩ := raw
  rw [toList_text,isObject]
  cases node with
  | boolean value => cases value <;> simp [Node.isObject,Node.print]
  | number literal =>
    obtain ⟨c,rest,printed,starts⟩ := literal.print_front
    have different : c ≠ '\x7b' := by
      rintro rfl
      revert starts
      decide
    simpa [Node.isObject,Node.print,printed] using different
  | broken => contradiction
  | _ => simp [Node.isObject,Node.print,Literal.print]

end Raw
end Jmap.Json
