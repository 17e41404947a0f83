import Jmap.Proofs.Decoding.Phases
import Jmap.Proofs.Envelope
import Jmap.Proofs.Json.Meaning

/-! Triplets against the grammar of JSON. The elements of a text that is an array are the
slices that the grammar makes of it; what becomes of the text depends on their number and
on which of them are strings and objects. -/
namespace Jmap
open Json Outcome Grammar

namespace Json

/-- An array between blanks, and the texts of its items. -/
def ArrayDocument (text : String) (parts : List (List Char)) : Prop :=
  ∃ before array after, before ∈ gap ∧ ArrayText parts array ∧ after ∈ gap ∧ text.toList = before ++ (array ++ after)

theorem Raw.map_toList_text (elements : List Raw) :
    elements.map (·.text.toList) = (elements.map node).map Node.print := by
  rw [List.map_map]
  exact List.map_congr_left fun raw _ => raw.toList_text

theorem Items.read_raw (room : Nat) {items : Items} (closed : items.isClosed) :
    ∃ elements, items.read Reader.raw room = .ok elements ∧ elements.map Raw.node = items.toList := by
  fun_induction Items.toList items with
  | case1 before item after =>
    have first : Reader.raw room item = .ok ⟨item,closed⟩ := Reader.raw_node room ⟨item,closed⟩
    exact ⟨[⟨item,closed⟩],by simp [Items.read,first],rfl⟩
  | case2 before item after rest ih =>
    simp only [Items.isClosed,Bool.and_eq_true] at closed
    have first : Reader.raw room item = .ok ⟨item,closed.1⟩ := Reader.raw_node room ⟨item,closed.1⟩
    obtain ⟨elements,read,same⟩ := ih closed.2
    exact ⟨⟨item,closed.1⟩ :: elements,by simp [Items.read,first,read],by simp [same]⟩
  | case3 => contradiction

theorem Node.list_raw {room : Nat} {node : Node} {nodes : List Node} (closed : node.isClosed)
    (items : node.items? = some nodes) :
    ∃ elements, Reader.list Reader.raw (room + 1) node = .ok elements ∧ elements.map Raw.node = nodes := by
  cases node with
  | emptyArray inside =>
    cases items
    exact ⟨[],rfl,rfl⟩
  | array parts =>
    cases items
    exact Items.read_raw room closed
  | _ => contradiction

end Json

namespace Triplet

/-- The elements that are read are those of the grammar. -/
theorem arrayDocument_iff {text : String} {parts : List (List Char)} : ArrayDocument text parts ↔
    ∃ elements, elementsReader.ofText text = .ok elements ∧ elements.map (·.text.toList) = parts := by
  constructor
  · rintro ⟨before,array,after,blank,text,blankAfter,same⟩
    obtain ⟨node,nodes,closed,items,rfl,rfl⟩ := exists_array text
    obtain ⟨elements,read,rfl⟩ := Node.list_raw closed items
    obtain ⟨root,ends⟩ := Document.of_padded closed ⟨before,after,blank,blankAfter,same⟩
    refine ⟨elements,Reader.ofText_eq_ok_iff.mpr ?_,Raw.map_toList_text elements⟩
    rw [root]
    exact ⟨read,ends⟩
  · rintro ⟨elements,read,rfl⟩
    obtain ⟨inner,ends⟩ := Reader.ofText_eq_ok_iff.mp read
    have closed := whole_elementsReader _ _ _ inner
    have array := (Node.arrayText_iff closed).mpr ⟨_,items?_of_elementsReader inner,rfl⟩
    obtain ⟨before,after,blank,blankAfter,same⟩ := Document.padded closed ends
    rw [Raw.map_toList_text]
    exact ⟨before,_,after,blank,array,blankAfter,same⟩

/-- A triplet with its three elements as they are spelled in the text. -/
def Written (text name : String) (arguments : List Char) (callId : String) : Prop :=
  ∃ first third, ArrayDocument text [first,arguments,third] ∧ StringText first name ∧ ObjectText arguments ∧
    StringText third callId

/-- What becomes of a text. Of several faults the first in this order counts. -/
inductive Reads (text : String) : Except Error Triplet → Prop where
  | noArray (none : ∀ parts, ¬ArrayDocument text parts) : Reads text (.error (.serialization .malformed))
  | arity {parts : List (List Char)} (array : ArrayDocument text parts) (count : parts.length ≠ 3) :
    Reads text (.error (.invocationArity parts.length))
  | name {first second third : List Char} (array : ArrayDocument text [first,second,third])
    (noText : ∀ name, ¬StringText first name) : Reads text (.error (.serialization .malformed))
  | arguments {first second third : List Char} {name : String} (array : ArrayDocument text [first,second,third])
    (named : StringText first name) (noObject : ¬ObjectText second) : Reads text (.error .argumentsNotObject)
  | callId {first second third : List Char} {name : String} (array : ArrayDocument text [first,second,third])
    (named : StringText first name) (object : ObjectText second) (noText : ∀ callId, ¬StringText third callId) :
    Reads text (.error (.serialization .malformed))
  | triplet {triplet : Triplet} (written : Written text triplet.name triplet.arguments.text.toList triplet.callId) :
    Reads text (.ok triplet)

theorem exists_three {text : String} {first second third : List Char}
    (array : ArrayDocument text [first,second,third]) : ∃ name arguments callId : Raw,
      elementsReader.ofText text = .ok [name,arguments,callId] ∧ name.text.toList = first ∧
        arguments.text.toList = second ∧ callId.text.toList = third := by
  obtain ⟨elements,read,parts⟩ := arrayDocument_iff.mp array
  obtain ⟨name,_,rfl,first,two⟩ := List.map_eq_cons_iff.mp parts
  obtain ⟨arguments,_,rfl,second,one⟩ := List.map_eq_cons_iff.mp two
  obtain ⟨callId,_,rfl,third,none⟩ := List.map_eq_cons_iff.mp one
  rw [List.map_eq_nil_iff.mp none] at read
  exact ⟨name,arguments,callId,read,first,second,third⟩

theorem arrayDocument_of_read {text : String} {elements : List Raw} (read : elementsReader.ofText text = .ok elements) :
    ArrayDocument text (elements.map (·.text.toList)) := arrayDocument_iff.mpr ⟨elements,read,rfl⟩

theorem ofText_of_read {text : String} {elements : List Raw} (read : elementsReader.ofText text = .ok elements) :
    ofText text = ofElements elements := by
  rw [ofText,read]
  rfl

theorem reads_ofText (text : String) : Reads text (ofText text) := by
  cases read : elementsReader.ofText text with
  | error defect =>
    have malformed : defect = .malformed := Reader.Uniform.raw.list.ofText read
    have failed : ofText text = .error (.serialization .malformed) := by
      rw [ofText,read,malformed]
      rfl
    rw [failed]
    refine .noArray fun parts array => ?_
    obtain ⟨elements,present,_⟩ := arrayDocument_iff.mp array
    rw [read] at present
    contradiction
  | ok elements =>
    have array := arrayDocument_of_read read
    rw [ofText_of_read read]
    cases made : ofElements elements with
    | ok triplet =>
      obtain ⟨name,callId,rfl,named,identified⟩ := ofElements_eq_ok_iff.mp made
      exact .triplet ⟨_,_,array,Reader.text_ofRaw_eq_ok_iff.mp named,Raw.objectText_iff.mpr triplet.isObject,
        Reader.text_ofRaw_eq_ok_iff.mp identified⟩
    | error error =>
      cases ofElements_eq_error_iff.mp made with
      | arity count =>
        have counted := Reads.arity array (by rwa [List.length_map])
        rwa [List.length_map] at counted
      | name unread =>
        obtain ⟨rfl,noText⟩ := Reader.text_ofRaw_eq_error_iff.mp unread
        exact .name array noText
      | arguments named noObject =>
        exact .arguments array (Reader.text_ofRaw_eq_ok_iff.mp named) (by simp [Raw.objectText_iff,noObject])
      | callId named object unread =>
        obtain ⟨rfl,noText⟩ := Reader.text_ofRaw_eq_error_iff.mp unread
        exact .callId array (Reader.text_ofRaw_eq_ok_iff.mp named) (Raw.objectText_iff.mpr object) noText

theorem ofText_of_reads {text : String} {outcome : Except Error Triplet} (reads : Reads text outcome) :
    ofText text = outcome := by
  cases reads with
  | noArray none =>
    cases read : elementsReader.ofText text with
    | error defect =>
      rw [ofText,read,Reader.Uniform.raw.list.ofText read]
      rfl
    | ok elements => exact absurd (arrayDocument_of_read read) (none _)
  | arity array count =>
    obtain ⟨elements,read,rfl⟩ := arrayDocument_iff.mp array
    rw [List.length_map] at count ⊢
    rw [ofText_of_read read,ofElements_eq_error_iff]
    exact .arity count
  | name array noText =>
    obtain ⟨name,arguments,callId,read,rfl,rfl,rfl⟩ := exists_three array
    rw [ofText_of_read read,ofElements_eq_error_iff]
    exact .name (Reader.text_ofRaw_eq_error_iff.mpr ⟨rfl,noText⟩)
  | arguments array named noObject =>
    obtain ⟨name,arguments,callId,read,rfl,rfl,rfl⟩ := exists_three array
    rw [ofText_of_read read,ofElements_eq_error_iff]
    exact .arguments (Reader.text_ofRaw_eq_ok_iff.mpr named) (by simpa [Raw.objectText_iff] using noObject)
  | callId array named object noText =>
    obtain ⟨name,arguments,callId,read,rfl,rfl,rfl⟩ := exists_three array
    rw [ofText_of_read read,ofElements_eq_error_iff]
    exact .callId (Reader.text_ofRaw_eq_ok_iff.mpr named) (Raw.objectText_iff.mp object)
      (Reader.text_ofRaw_eq_error_iff.mpr ⟨rfl,noText⟩)
  | @triplet triplet written =>
    obtain ⟨first,third,array,named,_,identified⟩ := written
    obtain ⟨name,arguments,callId,read,rfl,same,rfl⟩ := exists_three array
    have kept : arguments = triplet.arguments := Raw.text_injective (String.toList_injective same)
    rw [ofText_of_read read,ofElements_eq_ok_iff,kept]
    exact ⟨name,callId,rfl,Reader.text_ofRaw_eq_ok_iff.mpr named,Reader.text_ofRaw_eq_ok_iff.mpr identified⟩

theorem exists_ok_iff {text : String} : (∃ triplet, ofText text = .ok triplet) ↔
    ∃ name arguments callId, Written text name arguments callId := by
  constructor
  · rintro ⟨triplet,read⟩
    have reads := reads_ofText text
    rw [read] at reads
    cases reads with
    | triplet written => exact ⟨_,_,_,written⟩
  · rintro ⟨name,arguments,callId,first,third,array,named,object,identified⟩
    obtain ⟨_,kept,_,_,_,rfl,_⟩ := exists_three array
    let triplet : Triplet := ⟨name,kept,callId,Raw.objectText_iff.mp object⟩
    have reads : Reads text (.ok triplet) := .triplet ⟨first,third,array,named,object,identified⟩
    exact ⟨triplet,ofText_of_reads reads⟩

theorem ofText_toRaw (triplet : Triplet) : ofText triplet.toRaw.text = .ok triplet := by
  have read : elementsReader.ofText triplet.toRaw.text = .ok triplet.elements := by
    rw [Reader.ofText_text]
    exact triplet.elementsReader_toRaw 126
  rw [ofText_of_read read,ofElements_elements]

/-- A text is read as a triplet just when the grammar makes it an array of a string, an
object and a string; what is written from three parts is read back as these. -/
theorem codec_of_grammar :
    (∀ text outcome, ofText text = outcome ↔ Reads text outcome) ∧
      (∀ text, (∃ triplet, ofText text = .ok triplet) ↔ ∃ name arguments callId, Written text name arguments callId) ∧
      (∀ text : String, ValueText text.toList ↔ ∃ raw : Raw, raw.text = text) ∧
      ∀ (name : String) (arguments : Raw) (callId : String),
        (¬ObjectText arguments.text.toList ∧ toRaw <$> new name arguments callId = .error .argumentsNotObject) ∨
          (ObjectText arguments.text.toList ∧ ∃ written triplet, toRaw <$> new name arguments callId = .ok written ∧
            ofText written.text = .ok triplet ∧ triplet.name = name ∧ triplet.arguments = arguments ∧
            triplet.callId = callId) := by
  refine ⟨fun text outcome => ?_,fun text => exists_ok_iff,fun text => ?_,fun name arguments callId => ?_⟩
  · exact ⟨fun same => same ▸ reads_ofText text,ofText_of_reads⟩
  · rw [Raw.valueText_iff]
    exact exists_congr fun raw => String.toList_inj
  · by_cases object : arguments.isObject
    · have made : new name arguments callId = .ok ⟨name,arguments,callId,object⟩ := dif_pos object
      exact .inr ⟨Raw.objectText_iff.mpr object,_,_,by rw [made]; rfl,ofText_toRaw _,rfl,rfl,rfl⟩
    · have refused : new name arguments callId = .error .argumentsNotObject := dif_neg object
      exact .inl ⟨Raw.objectText_iff.not.mpr object,by rw [refused]; rfl⟩

end Triplet
end Jmap
