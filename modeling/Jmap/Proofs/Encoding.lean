import Jmap.Proofs.CreatedIds
import Jmap.Proofs.Json.Compact

/-! The one text that stands for a request or response, and the fault that is reported
where there is none: of the first call that cannot be written, and of the created ids
only if all calls can. -/
namespace Jmap
open Json Outcome

namespace Triplet

def row (name arguments callId : String) : String := Compact.array [Compact.quoted name,arguments,Compact.quoted callId]

def text (triplet : Triplet) : String := row triplet.name triplet.arguments.text triplet.callId

theorem text_toRaw (triplet : Triplet) : triplet.toRaw.text = triplet.text := by
  simp [toRaw,text,row,Raw.text_ofList,Raw.text_ofString]

end Triplet

namespace Invocation
variable {A : Type} [Writable A]

/-- The arguments stand in the row as they write themselves. -/
inductive Writes (call : Invocation A) : String → Prop where
  | object {arguments : Raw} (encoded : encode call.arguments = .ok arguments) (object : arguments.isObject) :
    Writes call (Triplet.row call.name arguments.text call.callId)

inductive Unwritable (call : Invocation A) : Error → Prop where
  | arguments {defect : Defect} (failed : encode call.arguments = .error defect) :
    Unwritable call (.serialization defect)
  | noObject {arguments : Raw} (encoded : encode call.arguments = .ok arguments)
    (noObject : arguments.isObject = false) : Unwritable call .argumentsNotObject

theorem text_toTriplet_eq_ok_iff {call : Invocation A} {row : String} :
    Triplet.text <$> call.toTriplet = .ok row ↔ call.Writes row := by
  rw [map_eq_ok_iff]
  constructor
  · rintro ⟨triplet,written,rfl⟩
    obtain ⟨encoded,name,callId⟩ := toTriplet_eq_ok_iff.mp written
    rw [Triplet.text,name,callId]
    exact .object encoded triplet.isObject
  · rintro ⟨encoded,object⟩
    exact ⟨⟨call.name,_,call.callId,object⟩,toTriplet_eq_ok_iff.mpr ⟨encoded,rfl,rfl⟩,rfl⟩

theorem toTriplet_eq_error_iff {call : Invocation A} {error : Error} :
    call.toTriplet = .error error ↔ call.Unwritable error := by
  rw [toTriplet,bind_eq_error_iff,mapError_eq_error_iff]
  simp only [mapError_eq_ok_iff]
  constructor
  · rintro (⟨defect,failed,rfl⟩ | ⟨arguments,encoded,failed⟩)
    · exact .arguments failed
    · unfold Triplet.new at failed
      split at failed
      · contradiction
      next noObject =>
        cases failed
        exact .noObject encoded (by simpa using noObject)
  · rintro (failed | ⟨encoded,noObject⟩)
    · exact .inl ⟨_,failed,rfl⟩
    · exact .inr ⟨_,encoded,by simp [Triplet.new,noObject]⟩

end Invocation

theorem MethodError.text_toRaw (error : MethodError) :
    error.toRaw.text = Compact.object (error.toBag.entries.map fun member => (member.1,member.2.text)) := by
  rw [toRaw,PropertyBag.toRaw,← Raw.ofMembers_values,Raw.text_ofMembers,List.map_map]
  rfl

namespace MethodResponse
variable {A : Type} [Writable A]

/-- The object of a method error holds its properties, its type among them. -/
inductive Writes : MethodResponse A → String → Prop where
  | success {result : Invocation A} {row : String} (written : result.Writes row) : Writes (.success result) row
  | failure (error : MethodError) : Writes (.failure error) (Triplet.row "error"
      (Compact.object (error.toBag.entries.map fun member => (member.1,member.2.text))) error.callId)

/-- A method error is not among the entries that cannot be written. -/
inductive Unwritable : MethodResponse A → Error → Prop where
  | success {result : Invocation A} {error : Error} (unwritable : result.Unwritable error) :
    Unwritable (.success result) error

theorem text_toTriplet_eq_ok_iff {entry : MethodResponse A} {row : String} :
    Triplet.text <$> entry.toTriplet = .ok row ↔ entry.Writes row := by
  cases entry with
  | success result =>
    rw [toTriplet,Invocation.text_toTriplet_eq_ok_iff]
    constructor
    · exact .success
    · rintro ⟨written⟩
      exact written
  | failure error =>
    rw [toTriplet_failure,map_ok,Triplet.text,error.text_toRaw]
    constructor
    · rintro ⟨⟩
      exact .failure error
    · rintro ⟨⟩
      rfl

theorem toTriplet_eq_error_iff {entry : MethodResponse A} {error : Error} :
    entry.toTriplet = .error error ↔ entry.Unwritable error := by
  cases entry with
  | success result =>
    rw [toTriplet,Invocation.toTriplet_eq_error_iff]
    constructor
    · exact .success
    · rintro ⟨unwritable⟩
      exact unwritable
  | failure failure =>
    rw [toTriplet_failure]
    constructor <;> rintro ⟨⟩

end MethodResponse

namespace CreatedIds

def Valid (createdIds : Option CreatedIds) : Prop :=
  ∀ ids, createdIds = some ids → ∀ entry ∈ ids.entries, Id.isValid ⟨entry.1⟩ ∧ entry.2.isValid

theorem valid_iff {createdIds : Option CreatedIds} :
    Valid createdIds ↔ ∀ part ∈ constrained createdIds, part.isValid := by
  cases createdIds with
  | none => simp [Valid,constrained]
  | some ids =>
    simp only [Valid,constrained,Option.elim_some,List.forall_mem_flatMap,List.forall_mem_cons,Option.some.injEq,
      forall_eq']
    simp [Constrained.isValid]

def textMembers (createdIds : Option CreatedIds) : List (String × String) :=
  match createdIds with
  | none => []
  | some ids => [("createdIds",Compact.object (ids.entries.map fun entry => (entry.1,Compact.quoted entry.2.text)))]

theorem map_text_written {createdIds : Option CreatedIds} {created : List (String × Raw)}
    (done : written createdIds = .ok created) :
    created.map (fun member => (member.1,member.2.text)) = textMembers createdIds := by
  cases createdIds with
  | none =>
    cases done
    rfl
  | some ids =>
    obtain ⟨raw,encoded,rfl⟩ := map_eq_ok_iff.mp done
    obtain ⟨parts,related,rfl⟩ := encodeMembers_eq_ok_iff.mp encoded
    rw [List.forall₂_map_left_iff] at related
    have texts : ids.entries.map (fun entry => (entry.1,Compact.quoted entry.2.text)) =
        parts.map fun part => (part.1,part.2.text) := by
      rw [← List.forall₂_eq_eq_eq,List.forall₂_map_left_iff,List.forall₂_map_right_iff]
      refine related.imp fun entry part paired => ?_
      obtain ⟨key,written⟩ := paired
      obtain ⟨⟨⟩,_,encoded⟩ := bind_eq_ok_iff.mp written
      obtain ⟨_,value⟩ := Id.encode_eq_ok_iff.mp encoded
      rw [← key,← value,Raw.text_ofString]
    rw [List.map_singleton,Raw.text_ofMembers,textMembers,texts]

end CreatedIds

section
variable {I : Type} (Writes : I → String → Prop) (Unwritable : I → Error → Prop) (items : List I)
  (createdIds : Option CreatedIds)

/-- The fault that counts: the first item that cannot be written, and if there is none the
first created id that is not valid, the key of an entry before its value. -/
inductive EncodingFault : Error → Prop where
  | item {before after : List I} {item : I} {error : Error} (split : items = before ++ item :: after)
    (written : ∀ earlier ∈ before, ∃ row, Writes earlier row) (unwritable : Unwritable item error) : EncodingFault error
  | createdIds {part : Constrained} (written : ∀ item ∈ items, ∃ row, Writes item row)
    (first : (CreatedIds.constrained createdIds).find? (!·.isValid) = some part) :
    EncodingFault (.serialization (.violation part.violation))

/-- What becomes of a body whose text is put together from the rows of its items. -/
structure Encodes (assemble : List String → String) (outcome : Except Error String) : Prop where
  succeeds_iff : (∃ text, outcome = .ok text) ↔ (∀ item ∈ items, ∃ row, Writes item row) ∧ CreatedIds.Valid createdIds
  text : ∀ text, outcome = .ok text → ∃ rows, List.Forall₂ Writes items rows ∧ text = assemble rows
  fails_iff : ∀ error, outcome = .error error ↔ EncodingFault Writes Unwritable items createdIds error

end

section
variable {I : Type} {Writes : I → String → Prop} {Unwritable : I → Error → Prop} {items : List I}
  {createdIds : Option CreatedIds} {toTriplet : I → Except Error Triplet}
  {members : List (String × Raw) → List Triplet → List (String × Raw)} {assemble : List String → String}

theorem exists_triplets_iff (writes : ∀ {item row}, Triplet.text <$> toTriplet item = .ok row ↔ Writes item row) :
    (∃ triplets, items.mapM toTriplet = .ok triplets) ↔ ∀ item ∈ items, ∃ row, Writes item row := by
  have written {item} : (∃ triplet, toTriplet item = .ok triplet) ↔ ∃ row, Writes item row := by
    simp only [← writes,map_eq_ok_iff]
    exact ⟨fun ⟨triplet,made⟩ => ⟨_,triplet,made,rfl⟩,fun ⟨_,triplet,made,_⟩ => ⟨triplet,made⟩⟩
  simp only [← written]
  exact ⟨fun ⟨_,made⟩ _ => exists_of_mapM made,exists_mapM⟩

theorem fault_of_items_iff (writes : ∀ {item row}, Triplet.text <$> toTriplet item = .ok row ↔ Writes item row)
    (unwritable : ∀ {item error}, toTriplet item = .error error ↔ Unwritable item error) {error : Error} :
    items.mapM toTriplet = .error error ↔ ∃ before item after, items = before ++ item :: after ∧
      (∀ earlier ∈ before, ∃ row, Writes earlier row) ∧ Unwritable item error := by
  simp only [mapM_eq_error_iff,unwritable,← exists_triplets_iff writes]
  refine exists₃_congr fun before item after => and_congr_right fun _ => and_congr_left fun _ => ?_
  exact ⟨exists_mapM,fun ⟨_,made⟩ _ => exists_of_mapM made⟩

theorem encodes (writes : ∀ {item row}, Triplet.text <$> toTriplet item = .ok row ↔ Writes item row)
    (unwritable : ∀ {item error}, toTriplet item = .error error ↔ Unwritable item error)
    (assembled : ∀ {created} triplets, CreatedIds.written createdIds = .ok created →
      (Raw.ofMembers (members created triplets)).text = assemble (triplets.map Triplet.text)) :
    Encodes Writes Unwritable items createdIds assemble (Raw.text <$> do
      let triplets ← items.mapM toTriplet
      let created ← (CreatedIds.written createdIds).mapError .serialization
      return .ofMembers (members created triplets)) := by
  -- The created ids are looked at behind the items, so they decide only where all items are written.
  have ids := (CreatedIds.guarded_written createdIds).mapError Error.serialization
  refine ⟨?_,?_,?_⟩
  · simp only [map_eq_ok_iff,bind_eq_ok_iff,CreatedIds.valid_iff,← ids.succeeds_iff,← exists_triplets_iff writes]
    constructor
    · rintro ⟨_,_,⟨triplets,made,created,done,_⟩,_⟩
      exact ⟨⟨triplets,made⟩,created,done⟩
    · rintro ⟨⟨triplets,made⟩,created,done⟩
      exact ⟨_,_,⟨triplets,made,created,done,rfl⟩,rfl⟩
  · intro text succeeded
    obtain ⟨body,composed,rfl⟩ := map_eq_ok_iff.mp succeeded
    obtain ⟨triplets,made,closed⟩ := bind_eq_ok_iff.mp composed
    obtain ⟨created,done,same⟩ := bind_eq_ok_iff.mp closed
    cases same
    refine ⟨triplets.map Triplet.text,?_,assembled triplets (mapError_eq_ok_iff.mp done)⟩
    rw [List.forall₂_map_right_iff]
    refine (mapM_eq_ok_iff.mp made).imp fun item triplet wrote => ?_
    exact writes.mp (map_eq_ok_iff.mpr ⟨triplet,wrote,rfl⟩)
  · intro error
    rw [map_eq_error_iff,bind_eq_error_iff,fault_of_items_iff writes unwritable]
    simp only [bind_eq_error_iff,ids.eq_error_iff]
    constructor
    · rintro (⟨_,_,_,split,good,bad⟩ | ⟨triplets,made,⟨part,first,rfl⟩ | ⟨_,_,impossible⟩⟩)
      · exact .item split good bad
      · exact .createdIds ((exists_triplets_iff writes).mp ⟨triplets,made⟩) first
      · contradiction
    · rintro (⟨split,good,bad⟩ | ⟨good,first⟩)
      · exact .inl ⟨_,_,_,split,good,bad⟩
      · obtain ⟨triplets,made⟩ := (exists_triplets_iff writes).mpr good
        exact .inr ⟨triplets,made,.inl ⟨_,first,rfl⟩⟩

end

namespace Request
variable {A : Type}

/-- The created ids stand between the capabilities and the calls, or nowhere. -/
def textOf (request : Request A) (rows : List String) : String :=
  Compact.object ([("using",Compact.array (request.uses.map Compact.quoted))] ++
    CreatedIds.textMembers request.createdIds ++ [("methodCalls",Compact.array rows)])

variable [Writable A]

theorem encodes (request : Request A) : Encodes Invocation.Writes Invocation.Unwritable request.calls
    request.createdIds request.textOf (Raw.text <$> request.encode) := by
  rw [encode_eq]
  apply Jmap.encodes Invocation.text_toTriplet_eq_ok_iff Invocation.toTriplet_eq_error_iff
  intro created triplets done
  simp [writtenMembers,textOf,← CreatedIds.map_text_written done,Raw.text_ofMembers,Raw.text_ofList,Raw.text_ofString,
    Triplet.text_toRaw,Function.comp_def]

end Request

namespace Response
variable {A : Type}

def textOf (response : Response A) (rows : List String) : String :=
  Compact.object (CreatedIds.textMembers response.createdIds ++
    [("sessionState",Compact.quoted response.sessionState),("methodResponses",Compact.array rows)])

variable [Writable A]

theorem encodes (response : Response A) : Encodes MethodResponse.Writes MethodResponse.Unwritable response.entries
    response.createdIds response.textOf (Raw.text <$> response.encode) := by
  rw [encode_eq]
  apply Jmap.encodes MethodResponse.text_toTriplet_eq_ok_iff MethodResponse.toTriplet_eq_error_iff
  intro created triplets done
  simp [writtenMembers,textOf,← CreatedIds.map_text_written done,Raw.text_ofMembers,Raw.text_ofList,Raw.text_ofString,
    Triplet.text_toRaw,Function.comp_def]

end Response

/-- Requests and responses are written by one law; only the members and the rows differ. -/
theorem encoded_text (A : Type) [Writable A] :
    (∀ request : Request A, Encodes Invocation.Writes Invocation.Unwritable request.calls request.createdIds
      request.textOf (Raw.text <$> request.encode)) ∧
    ∀ response : Response A, Encodes MethodResponse.Writes MethodResponse.Unwritable response.entries
      response.createdIds response.textOf (Raw.text <$> response.encode) :=
  ⟨Request.encodes,Response.encodes⟩

example : (⟨["cap"],[],none⟩ : Request Value).textOf [Triplet.row "NAME" "\x7b\"arg\":\"foo\"\x7d" "id"] =
    "\x7b\"using\":[\"cap\"],\"methodCalls\":[[\"NAME\",\x7b\"arg\":\"foo\"\x7d,\"id\"]]\x7d" := by
  decide +kernel

end Jmap
