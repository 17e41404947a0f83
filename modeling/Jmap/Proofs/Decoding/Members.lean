import Jmap.Proofs.CreatedIds
import Jmap.Proofs.Invocation
import Jmap.Proofs.Json.Objects

/-! The members of a body. Their order does not count, nor do members with other names, and
what is absent is the same as its default; in an array the same values stand in a fixed order. -/
namespace Jmap
open Json Outcome

/-- Other members for the same slots: in another order, with one more that has a name of its
own, or with the default of one that was absent. -/
inductive Varied (slots : List (String × String)) : List (String × List Char) → List (String × List Char) → Prop where
  | reordered {members others : List (String × List Char)} (same : members.Perm others) : Varied slots members others
  | inserted {members : List (String × List Char)} {name : String} (unknown : name ∉ slots.map Prod.fst)
    (part : List Char) : Varied slots members ((name,part) :: members)
  | filled {members : List (String × List Char)} {name default : String} (slot : (name,default) ∈ slots)
    (absent : name ∉ members.map Prod.fst) : Varied slots members ((name,default.toList) :: members)

/-- The values of the members at the places of their names. An absent one is given as its
default, or left out at the end. -/
def Positional (slots : List (String × String)) (members : List (String × List Char)) (parts : List (List Char)) : Prop :=
  parts.length ≤ slots.length ∧ ∀ (place : Nat) (name default : String), slots[place]? = some (name,default) →
    (parts[place]?).getD default.toList = (members.lookup name).getD default.toList

structure Unordered {E M : Type} (slots : List (String × String)) (decode : String → Except E M) : Prop where
  documents : ∀ {text : String} {message : M}, decode text = .ok message →
    (∃ members, ObjectDocument text members) ∨ ∃ parts, ArrayDocument text parts ∧ parts.length ≤ slots.length
  varied : ∀ {text other : String} {members others : List (String × List Char)} {message : M},
    ObjectDocument text members → ObjectDocument other others → Relation.EqvGen (Varied slots) members others →
      decode text = .ok message → decode other = .ok message
  positional : ∀ {text other : String} {members : List (String × List Char)} {parts : List (List Char)} {message : M},
    ObjectDocument text members → ArrayDocument other parts → Positional slots members parts →
      decode text = .ok message → decode other = .ok message
  unrepeated : ∀ {text : String} {members : List (String × List Char)} {name : String}, ObjectDocument text members →
    name ∈ slots.map Prod.fst → 1 < (members.map Prod.fst).count name → ∃ error, decode text = .error error

theorem Unordered.bind {E F M N : Type} {slots : List (String × String)} {decode : String → Except E M}
    (unordered : Unordered slots decode) (describe : E → F) (next : M → Except F N) :
    Unordered slots fun text => (decode text).mapError describe >>= next := by
  have first {text : String} {result : N} (decoded : (decode text).mapError describe >>= next = .ok result) :
      ∃ message, decode text = .ok message ∧ next message = .ok result := by
    obtain ⟨message,read,understood⟩ := bind_eq_ok_iff.mp decoded
    exact ⟨message,mapError_eq_ok_iff.mp read,understood⟩
  refine ⟨fun decoded => ?_,fun here there varied decoded => ?_,fun here there positional decoded => ?_,
    fun here known repeated => ?_⟩
  · obtain ⟨message,read,_⟩ := first decoded
    exact unordered.documents read
  · obtain ⟨message,read,understood⟩ := first decoded
    rw [unordered.varied here there varied read]
    exact understood
  · obtain ⟨message,read,understood⟩ := first decoded
    rw [unordered.positional here there positional read]
    exact understood
  · obtain ⟨error,refused⟩ := unordered.unrepeated here known repeated
    exact ⟨describe error,by rw [refused]; rfl⟩

def Once (slots : List (String × String)) (members : List (String × List Char)) : Prop :=
  ∀ name ∈ slots.map Prod.fst, (members.map Prod.fst).count name ≤ 1

section
variable {slots : List (String × String)} {members others : List (String × List Char)}

theorem count_cons_of_ne {name own : String} (different : name ≠ own) (part : List Char) :
    (((own,part) :: members).map Prod.fst).count name = (members.map Prod.fst).count name := by
  rw [List.map_cons,List.count_cons_of_ne (Ne.symm different)]

theorem Varied.once (varied : Varied slots members others) : Once slots members ↔ Once slots others := by
  cases varied with
  | reordered same => simp only [Once,(same.map Prod.fst).count_eq]
  | @inserted name unknown part =>
    refine forall₂_congr fun own known => ?_
    have different : own ≠ name := fun same => unknown (same ▸ known)
    rw [count_cons_of_ne different]
  | @filled name default slot absent =>
    refine forall₂_congr fun own known => ?_
    by_cases same : own = name
    · subst same
      simp [List.count_eq_zero.mpr absent]
    · rw [count_cons_of_ne same]

/-- In every slot the two have the same value, or its default. -/
def SameValues (slots : List (String × String)) (members others : List (String × List Char)) : Prop :=
  ∀ name default, (name,default) ∈ slots →
    (members.lookup name).getD default.toList = (others.lookup name).getD default.toList

theorem lookup_eq_none {name : String} (absent : name ∉ members.map Prod.fst) : members.lookup name = none := by
  refine List.lookup_eq_none_iff.mpr fun entry inside => bne_iff_ne.mpr ?_
  rintro rfl
  exact absent (List.mem_map_of_mem inside)

theorem Varied.sameValues (distinct : (slots.map Prod.fst).Nodup) (once : Once slots members)
    (varied : Varied slots members others) : SameValues slots members others := by
  intro name default slot
  have known : name ∈ slots.map Prod.fst := List.mem_map_of_mem slot
  cases varied with
  | reordered same =>
    have alone : (others.map Prod.fst).count name ≤ 1 := by
      rw [← (same.map Prod.fst).count_eq]
      exact once name known
    have found : members.lookup name = others.lookup name := by
      refine Option.ext fun value => ?_
      rw [lookup_eq_some_iff_mem (once name known),lookup_eq_some_iff_mem alone,same.mem_iff]
    rw [found]
  | @inserted own unknown part =>
    have different : name ≠ own := fun same => unknown (same ▸ known)
    rw [List.lookup_cons,beq_eq_false_iff_ne.mpr different]
  | @filled own text other absent =>
    by_cases same : name = own
    · subst same
      have same : default = text := congrArg Prod.snd (List.inj_on_of_nodup_map distinct slot other rfl)
      simp [same,lookup_eq_none absent]
    · rw [List.lookup_cons,beq_eq_false_iff_ne.mpr same]

theorem eqvGen_varied (distinct : (slots.map Prod.fst).Nodup) (variations : Relation.EqvGen (Varied slots) members others) :
    (Once slots members ↔ Once slots others) ∧ (Once slots members → SameValues slots members others) := by
  induction variations with
  | rel _ _ varied => exact ⟨varied.once,fun once => varied.sameValues distinct once⟩
  | refl => exact ⟨Iff.rfl,fun _ _ _ _ => rfl⟩
  | symm _ _ _ ih => exact ⟨ih.1.symm,fun once name default slot => (ih.2 (ih.1.mpr once) name default slot).symm⟩
  | trans _ _ _ _ _ first second =>
    exact ⟨first.1.trans second.1,fun once name default slot =>
      (first.2 once name default slot).trans (second.2 (first.1.mp once) name default slot)⟩

end

namespace Json

theorem lookup_printEntry (entries : List (String × Node)) (name : String) :
    (entries.map printEntry).lookup name = (entries.lookup name).map Node.print := by
  induction entries with
  | nil => rfl
  | cons entry entries ih =>
    rw [List.map_cons,printEntry,List.lookup_cons,List.lookup_cons,ih]
    split <;> rfl

theorem ObjectDocument.part? {text : String} {members : List (String × List Char)} (document : ObjectDocument text members)
    (place : Nat) (name : String) : (Document.ofText text).root.part? place name = members.lookup name := by
  obtain ⟨_,entries,holds,rfl⟩ := objectDocument_iff.mp document
  rw [Node.part?,holds.field?,lookup_printEntry]

theorem ArrayDocument.root {text : String} {parts : List (List Char)} (document : ArrayDocument text parts) :
    ∃ nodes, (Document.ofText text).root.isClosed ∧ (Document.ofText text).root.items? = some nodes ∧
      nodes.map Node.print = parts ∧ (Document.ofText text).trailing = [] := by
  obtain ⟨elements,read,rfl⟩ := Triplet.arrayDocument_iff.mp document
  obtain ⟨inner,ends⟩ := Reader.ofText_eq_ok_iff.mp read
  exact ⟨_,Triplet.whole_elementsReader _ _ _ inner,Triplet.items?_of_elementsReader inner,
    (Raw.map_toList_text elements).symm,ends⟩

theorem ArrayDocument.part? {text : String} {parts : List (List Char)} (document : ArrayDocument text parts)
    (place : Nat) (name : String) : (Document.ofText text).root.part? place name = parts[place]? := by
  obtain ⟨nodes,_,items,rfl,_⟩ := document.root
  rw [Node.part?,Node.field?_of_items items,List.getElem?_map]

theorem ObjectDocument.get_of_absent {R B : Type} {fields : List (RecordField R)} {start result : R} {name : String}
    {place : Nat} {reader : Reader B} {get : R → B} (known : IsField fields name place reader get) {text : String}
    {members : List (String × List Char)} (document : ObjectDocument text members)
    (absent : name ∉ members.map Prod.fst) (read : (Reader.record fields start).ofText text = .ok result) :
    get result = get start := by
  obtain ⟨_,_,gave⟩ := Reader.of_record known (Reader.root_of_ofText read)
  have nowhere := document.part? place name
  rw [lookup_eq_none absent,Node.part?,Option.map_eq_none_iff] at nowhere
  rwa [nowhere] at gave

namespace Lenient
variable {R : Type} {fields : List (RecordField R)} {start : R} {slots : List (String × String)}
  (lenient : Lenient fields start slots)
include lenient

theorem names : fields.map (·.name) = slots.map Prod.fst := by
  have related := lenient.slots
  clear lenient
  induction related with
  | nil => rfl
  | cons first _ ih => rw [List.map_cons,List.map_cons,ih,first.name]

theorem once_iff {members : List (String × List Char)} :
    (∀ field ∈ fields, (members.map Prod.fst).count field.name ≤ 1) ↔ Once slots members := by
  rw [Once,← lenient.names,List.forall_mem_map]

theorem presents_of_object {text : String} {members : List (String × List Char)} (document : ObjectDocument text members)
    (once : Once slots members) : Presents fields (Document.ofText text).root := by
  obtain ⟨_,entries,holds,rfl⟩ := objectDocument_iff.mp document
  have same : (entries.map printEntry).map Prod.fst = entries.map Prod.fst := List.map_map
  refine .object holds fun field member => ?_
  rw [← same]
  exact lenient.once_iff.mpr once field member

theorem presents_of_array {text : String} {parts : List (List Char)} (document : ArrayDocument text parts)
    (short : parts.length ≤ slots.length) : Presents fields (Document.ofText text).root := by
  obtain ⟨nodes,closed,items,rfl,_⟩ := document.root
  refine .array closed items ?_
  rw [lenient.slots.length_eq]
  simpa using short

theorem once_of_ofText {text : String} {members : List (String × List Char)} {result : R}
    (document : ObjectDocument text members) (read : (Reader.record fields start).ofText text = .ok result) :
    Once slots members := by
  obtain ⟨_,entries,holds,rfl⟩ := objectDocument_iff.mp document
  have inner : Reader.record fields start (126 + 1) (Document.ofText text).root = .ok result := Reader.root_of_ofText read
  have once := ((Reader.exists_record_of_holds lenient.distinct lenient.defaulted holds).mp ⟨result,inner⟩).1
  have same : (entries.map printEntry).map Prod.fst = entries.map Prod.fst := List.map_map
  rwa [← lenient.once_iff,same]

theorem ofText_of_agree {text other : String} {result : R} (read : (Reader.record fields start).ofText text = .ok result)
    (ends : (Document.ofText other).trailing = []) (presents : Presents fields (Document.ofText other).root)
    (agree : Agree slots (Document.ofText text).root.part? (Document.ofText other).root.part?) :
    (Reader.record fields start).ofText other = .ok result := by
  rw [Reader.ofText_eq_ok_iff] at read ⊢
  have inner : Reader.record fields start (125 + 2) (Document.ofText text).root = .ok result := read.1
  exact ⟨lenient.record_of_agree presents agree inner,ends⟩

theorem documents {text : String} {result : R} (read : (Reader.record fields start).ofText text = .ok result) :
    (∃ members, ObjectDocument text members) ∨ ∃ parts, ArrayDocument text parts ∧ parts.length ≤ slots.length := by
  obtain ⟨inner,ends⟩ := Reader.ofText_eq_ok_iff.mp read
  have root : Reader.record fields start (126 + 1) (Document.ofText text).root = .ok result := inner
  cases lenient.presents_of_record root with
  | object holds once => exact .inl ⟨_,objectDocument_iff.mpr ⟨ends,_,holds,rfl⟩⟩
  | array closed items short =>
    obtain ⟨elements,listed,rfl⟩ := Node.list_raw closed items
    have array : Triplet.elementsReader.ofText text = .ok elements := Reader.ofText_eq_ok_iff.mpr ⟨listed,ends⟩
    refine .inr ⟨_,Triplet.arrayDocument_of_read array,?_⟩
    rw [List.length_map] at short ⊢
    exact short.trans_eq lenient.slots.length_eq

theorem unordered : Unordered slots (Reader.record fields start).ofText := by
  have distinct : (slots.map Prod.fst).Nodup := lenient.names ▸ lenient.distinct
  refine ⟨lenient.documents,fun here there variations read => ?_,fun here there positional read => ?_,
    fun here known repeated => ?_⟩
  · have once := lenient.once_of_ofText here read
    obtain ⟨same,values⟩ := eqvGen_varied distinct variations
    obtain ⟨ends,_⟩ := objectDocument_iff.mp there
    refine lenient.ofText_of_agree read ends (lenient.presents_of_object there (same.mp once)) ?_
    intro place name default slot
    rw [here.part?,there.part?]
    exact values once name default (List.mem_of_getElem? slot)
  · obtain ⟨short,values⟩ := positional
    obtain ⟨_,_,_,_,ends⟩ := there.root
    refine lenient.ofText_of_agree read ends (lenient.presents_of_array there short) fun place name default slot => ?_
    rw [here.part?,there.part?]
    exact (values place name default slot).symm
  · cases read : (Reader.record fields start).ofText _ with
    | error defect => exact ⟨defect,rfl⟩
    | ok result =>
      have once := lenient.once_of_ofText here read _ known
      omega

end Lenient
end Json

namespace Request
variable {A : Type}

def slots : List (String × String) := [("using","[]"),("methodCalls","[]"),("createdIds","null")]

theorem Body.isField_uses : IsField Body.fields "using" 0 (.list .text) Body.uses := by
  refine IsField.at rfl (fun _ _ => rfl) (by decide) ?_
  simp only [fields,List.eraseIdx,List.forall_mem_cons]
  refine ⟨?_,?_,by simp⟩ <;> exact fun _ _ _ => RecordField.keeps_of fun _ _ => rfl

theorem Body.lenient : Lenient Body.fields ⟨[],[],none⟩ slots where
  distinct := by decide
  slots := by
    have whole := Body.whole_fields
    simp only [fields,List.forall_mem_cons] at whole
    obtain ⟨uses,calls,createdIds,_⟩ := whole
    refine .cons ⟨rfl,rfl,uses,.emptyArray [],rfl,rfl,fun _ => ⟨_,rfl,rfl⟩⟩ ?_
    refine .cons ⟨rfl,rfl,calls,.emptyArray [],rfl,rfl,fun _ => ⟨_,rfl,rfl⟩⟩ ?_
    exact .cons ⟨rfl,rfl,createdIds,.null,rfl,rfl,fun _ => ⟨_,rfl,rfl⟩⟩ .nil
  determined first second same := by
    obtain ⟨uses,calls,createdIds⟩ := first
    obtain ⟨_,_,_⟩ := second
    cases same isField_uses
    cases same isField_calls
    cases same isField_createdIds
    rfl

theorem unordered (registry : Registry A) : Unordered slots (decode registry) := by
  have bodies : Unordered slots Body.reader.ofText := Body.lenient.unordered
  exact bodies.bind Error.serialization (Body.decode registry)

theorem defaults_of_decode {registry : Registry A} {text : String} {members : List (String × List Char)}
    {request : Request A} (document : ObjectDocument text members) (decoded : decode registry text = .ok request) :
    ("using" ∉ members.map Prod.fst → request.uses = []) ∧
      ("methodCalls" ∉ members.map Prod.fst → request.calls = []) ∧
      ("createdIds" ∉ members.map Prod.fst → request.createdIds = none) := by
  obtain ⟨body,triplets,read,split,resolved,same⟩ := of_decode decoded
  refine ⟨fun absent => ?_,fun absent => ?_,fun absent => ?_⟩
  · rw [same]
    exact document.get_of_absent Body.isField_uses absent read
  · have none : body.calls = [] := document.get_of_absent Body.isField_calls absent read
    rw [none] at split
    cases split
    exact (Except.ok.inj resolved).symm
  · rw [same]
    exact document.get_of_absent Body.isField_createdIds absent read

end Request

namespace Response
variable {A : Type}

def slots : List (String × String) := [("methodResponses","[]"),("createdIds","null"),("sessionState","\"\"")]

theorem Body.isField_sessionState : IsField Body.fields "sessionState" 2 .text Body.sessionState := by
  refine IsField.at rfl (fun _ _ => rfl) (by decide) ?_
  simp only [fields,List.eraseIdx,List.forall_mem_cons]
  refine ⟨?_,?_,by simp⟩ <;> exact fun _ _ _ => RecordField.keeps_of fun _ _ => rfl

theorem Body.lenient : Lenient Body.fields ⟨[],none,""⟩ slots where
  distinct := by decide
  slots := by
    have whole := Body.whole_fields
    simp only [fields,List.forall_mem_cons] at whole
    obtain ⟨entries,createdIds,sessionState,_⟩ := whole
    refine .cons ⟨rfl,rfl,entries,.emptyArray [],rfl,rfl,fun _ => ⟨_,rfl,rfl⟩⟩ ?_
    refine .cons ⟨rfl,rfl,createdIds,.null,rfl,rfl,fun _ => ⟨_,rfl,rfl⟩⟩ ?_
    exact .cons ⟨rfl,rfl,sessionState,.string [],rfl,rfl,fun _ => ⟨_,rfl,rfl⟩⟩ .nil
  determined first second same := by
    obtain ⟨entries,createdIds,sessionState⟩ := first
    obtain ⟨_,_,_⟩ := second
    cases same isField_entries
    cases same isField_createdIds
    cases same isField_sessionState
    rfl

theorem unordered (registry : Registry A) : Unordered slots (decode registry) := by
  have bodies : Unordered slots Body.reader.ofText := Body.lenient.unordered
  exact bodies.bind Error.serialization (Body.decode registry)

theorem defaults_of_decode {registry : Registry A} {text : String} {members : List (String × List Char)}
    {response : Response A} (document : ObjectDocument text members) (decoded : decode registry text = .ok response) :
    ("methodResponses" ∉ members.map Prod.fst → response.entries = []) ∧
      ("createdIds" ∉ members.map Prod.fst → response.createdIds = none) ∧
      ("sessionState" ∉ members.map Prod.fst → response.sessionState = "") := by
  obtain ⟨body,triplets,read,split,resolved,same⟩ := of_decode decoded
  refine ⟨fun absent => ?_,fun absent => ?_,fun absent => ?_⟩
  · have none : body.entries = [] := document.get_of_absent Body.isField_entries absent read
    rw [none] at split
    cases split
    exact (Except.ok.inj resolved).symm
  · rw [same]
    exact document.get_of_absent Body.isField_createdIds absent read
  · rw [same]
    exact document.get_of_absent Body.isField_sessionState absent read

end Response

/-- Requests and responses that hold the same values are decoded to the same, whatever the
order of the members, and whatever stands between them. -/
theorem bodies_unordered {A : Type} (registry : Registry A) :
    Unordered Request.slots (Request.decode registry) ∧ Unordered Response.slots (Response.decode registry) ∧
      (∀ text members request, ObjectDocument text members → Request.decode registry text = .ok request →
        ("using" ∉ members.map Prod.fst → request.uses = []) ∧
        ("methodCalls" ∉ members.map Prod.fst → request.calls = []) ∧
        ("createdIds" ∉ members.map Prod.fst → request.createdIds = none)) ∧
      ∀ text members response, ObjectDocument text members → Response.decode registry text = .ok response →
        ("methodResponses" ∉ members.map Prod.fst → response.entries = []) ∧
        ("createdIds" ∉ members.map Prod.fst → response.createdIds = none) ∧
        ("sessionState" ∉ members.map Prod.fst → response.sessionState = "") :=
  ⟨Request.unordered registry,Response.unordered registry,fun _ _ _ document => Request.defaults_of_decode document,
    fun _ _ _ document => Response.defaults_of_decode document⟩

theorem bodies_unordered_spelled :
    let registry : Registry Value := SortedMap.empty.insert "Core/echo" (.typed Reader.value)
    let plain := "\x7b\"using\":[\"urn:a\"],\"methodCalls\":[[\"Core/echo\",\x7b\x7d,\"c0\"]]\x7d"
    let spelled := "\x7b\"x\":\x7b\"using\":1\x7d,\"methodCalls\" : [[\"Core/echo\",\x7b\x7d,\"c0\"]], \"createdIds\":null,\"us\\u0069ng\":[\"urn:a\"]\x7d "
    let listed := "[[\"urn:a\"],[[\"Core/echo\",\x7b\x7d,\"c0\"]]]"
    let repeated := "\x7b\"using\":[],\"us\\u0069ng\":[]\x7d"
    (∃ request, Request.decode registry plain = .ok request ∧ Request.decode registry spelled = .ok request ∧
      Request.decode registry listed = .ok request ∧ request.createdIds = none) ∧
      ∃ error, Request.decode registry repeated = .error error := by
  intro registry plain spelled listed repeated
  obtain ⟨⟨_,varied,positional,unrepeated⟩,_,absent,_⟩ := bodies_unordered registry
  let uses := ("using","[\"urn:a\"]".toList)
  let calls := ("methodCalls","[[\"Core/echo\",\x7b\x7d,\"c0\"]]".toList)
  let created := ("createdIds","null".toList)
  let unknown := ("x","\x7b\"using\":1\x7d".toList)
  have here : ObjectDocument plain [uses,calls] := objectDocument_of_entries? (by decide +kernel) (by decide +kernel)
  have there : ObjectDocument spelled [unknown,calls,created,uses] :=
    objectDocument_of_entries? (by decide +kernel) (by decide +kernel)
  have twice : ObjectDocument repeated [("using","[]".toList),("using","[]".toList)] :=
    objectDocument_of_entries? (by decide +kernel) (by decide +kernel)
  have array : ArrayDocument listed [uses.2,calls.2] := by
    have checked : (Triplet.elementsReader.ofText listed).toOption.any
      fun elements => elements.map (·.text.toList) = [uses.2,calls.2] := by decide +kernel
    obtain ⟨elements,read,same⟩ := exists_ok_of_any checked
    exact Triplet.arrayDocument_iff.mpr ⟨elements,read,of_decide_eq_true same⟩
  have filled : Varied Request.slots [uses,calls] [created,uses,calls] := .filled (by decide) (by decide)
  have inserted : Varied Request.slots [created,uses,calls] [unknown,created,uses,calls] := .inserted (by decide) _
  have reordered : Varied Request.slots [unknown,created,uses,calls] [unknown,calls,created,uses] :=
    .reordered (by decide)
  have variations := (Relation.EqvGen.rel _ _ filled).trans _ _ _ (.trans _ _ _ (.rel _ _ inserted) (.rel _ _ reordered))
  have places : Positional Request.slots [uses,calls] [uses.2,calls.2] := by
    refine ⟨by decide,fun place name default slot => ?_⟩
    rcases place with _ | _ | _ | place <;> cases slot <;> rfl
  have accepted : (Request.decode registry plain).toOption.any fun _ => true := by decide +kernel
  obtain ⟨request,decoded,_⟩ := exists_ok_of_any accepted
  refine ⟨⟨request,decoded,varied here there variations decoded,positional here array places decoded,?_⟩,?_⟩
  · exact (absent plain _ request here decoded).2.2 (by decide)
  · exact @unrepeated repeated _ "using" twice (by decide) (by decide)

end Jmap
