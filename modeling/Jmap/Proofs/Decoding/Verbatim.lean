import Jmap.Arguments
import Jmap.Proofs.CreatedIds
import Jmap.Proofs.Decoding.Methods
import Jmap.Proofs.Json.Slices

/-! Decoding and encoding again, where the registry keeps the texts of arguments: they come
out as they went in, and all around them takes a form that another turn leaves as it is. -/
namespace Jmap
open Json Outcome

/-- Whatever a decoder takes is written again as it was spelled. -/
def Registry.KeepsText {A : Type} [Writable A] (registry : Registry A) : Prop :=
  ∀ method decoder, registry.decoder? method = some decoder →
    ∀ raw arguments, decoder raw = .ok arguments → encode arguments = .ok raw

/-- The arguments of the calls in a text: the second element of each, and so many slices of
the text one after the other. -/
structure Sliced (text name : String) (place : Nat) (slices : List Raw) : Prop where
  arguments : ∃ calls, Listed text name place calls ∧
    List.Forall₂ (fun elements slice => elements[1]? = some slice) calls slices
  inOrder : InOrder (slices.map fun slice => slice.text.toList) text.toList

theorem Listed.sliced {text name : String} {place : Nat} {calls : List (List Raw)} {slices : List Raw}
    (source : Listed text name place calls)
    (arguments : List.Forall₂ (fun elements slice => elements[1]? = some slice) calls slices) :
    Sliced text name place slices := by
  refine ⟨⟨calls,source,arguments⟩,?_⟩
  obtain ⟨printed,part⟩ := source
  rw [← printed]
  apply Document.inOrder_root
  cases found : (Document.ofText text).root.field? name place with
  | none =>
    rw [found] at part
    subst part
    cases arguments
    exact .nil _
  | some node =>
    rw [found] at part
    obtain ⟨nodes,items,spelled⟩ := part
    -- An argument stands in its row, the rows in the list of calls, and the list in the body.
    have each : List.Forall₂ (fun row slice => InOrder [slice.text.toList] row.print) nodes slices := by
      refine forall₂_comp (fun row elements slice items argument => ?_) spelled arguments
      have inside : slice.node ∈ elements.map Raw.node := List.mem_map_of_mem (List.mem_of_getElem? argument)
      rw [slice.toList_text]
      exact (Node.inOrder_items items).of_mem (List.mem_map_of_mem inside)
    have inRows : List.Forall₂ InOrder (slices.map fun slice => [slice.text.toList]) (nodes.map Node.print) := by
      rw [List.forall₂_map_left_iff,List.forall₂_map_right_iff]
      exact each.flip
    have inNode := (Node.inOrder_items items).refine inRows
    rw [← List.flatMap_def,← List.map_eq_flatMap] at inNode
    have inRoot := (Node.inOrder_field? found).refine (.cons inNode .nil)
    rwa [List.flatten_cons,List.flatten_nil,List.append_nil] at inRoot

theorem sliced_of_spelled {text name : String} {place : Nat} {calls : List (List Raw)} {triplets : List Triplet}
    (source : Listed text name place calls) (split : calls.mapM Triplet.ofElements = .ok triplets) :
    Sliced text name place (triplets.map Triplet.arguments) := by
  apply source.sliced
  rw [List.forall₂_map_right_iff]
  refine (mapM_eq_ok_iff.mp split).imp fun elements triplet made => ?_
  obtain ⟨name,callId,rfl,_⟩ := Triplet.ofElements_eq_ok_iff.mp made
  rfl

namespace Registry
variable {A : Type} [Writable A] {registry : Registry A}

theorem KeepsText.toTriplet (keeps : registry.KeepsText) {triplet : Triplet} {call : Invocation A}
    (decodes : registry.Decodes triplet call) : call.toTriplet = .ok triplet := by
  obtain ⟨name,callId,decoder,found,decoded⟩ := decodes
  exact Invocation.toTriplet_eq_ok_iff.mpr ⟨keeps _ decoder found _ _ decoded,name.symm,callId.symm⟩

end Registry

/-- A body is written for what a text means that means the same and is written for itself,
and the arguments in it are those of the text. -/
structure Normalises {M : Type} (decode : String → Except Error M) (encode : M → Except Error Raw) (name : String)
    (place : Nat) (text : String) (message : M) (body : Raw) : Prop where
  encoded : encode message = .ok body
  decoded : decode body.text = .ok message
  fixed : (decode body.text >>= encode) = .ok body
  verbatim : ∃ slices, Sliced text name place slices ∧ Sliced body.text name place slices

theorem normalises {M : Type} {decode : String → Except Error M} {encode : M → Except Error Raw} {text name : String}
    {place : Nat} {message : M} {body : Raw} {calls : List (List Raw)} {triplets : List Triplet}
    (encoded : encode message = .ok body) (decoded : decode body.text = .ok message)
    (source : Listed text name place calls) (split : calls.mapM Triplet.ofElements = .ok triplets)
    (rebuilt : Listed body.text name place (triplets.map Triplet.elements)) :
    Normalises decode encode name place text message body := by
  have fixed : (decode body.text >>= encode) = .ok body := by rw [decoded,ok_bind,encoded]
  have kept := sliced_of_spelled rebuilt (Triplet.mapM_ofElements triplets)
  exact ⟨encoded,decoded,fixed,_,sliced_of_spelled source split,kept⟩

namespace Request
variable {A : Type} [Writable A] {registry : Registry A}

theorem exists_normal (keeps : registry.KeepsText) {text : String} {request : Request A}
    (decoded : decode registry text = .ok request) :
    ∃ body, Normalises (decode registry) encode "methodCalls" 1 text request body := by
  obtain ⟨source,triplets,read,split,resolved,same⟩ := of_decode decoded
  obtain ⟨created,ids⟩ := CreatedIds.exists_written (CreatedIds.isValid_of_body Body.isField_createdIds rfl read)
  have written : request.calls.mapM Invocation.toTriplet = .ok triplets := by
    have decodes := (mapM_eq_ok_iff_of Registry.decodeCall_eq_ok_iff).mp resolved
    exact mapM_eq_ok_iff.mpr (decodes.flip.imp fun _ _ => keeps.toTriplet)
  have reread := decode_writtenMembers source.uses ids resolved
  have rebuilt := Body.ofText_writtenMembers ids source.uses triplets
  rw [← same] at reread
  have encoded : request.encode = .ok (.ofMembers (writtenMembers source.uses created triplets)) := by
    rw [same]
    exact encode_eq_ok_iff.mpr ⟨triplets,created,written,ids,rfl⟩
  exact ⟨_,normalises encoded reread (listed_of_read read) split (listed_of_read rebuilt)⟩

end Request

namespace Response
variable {A : Type} [Writable A] {registry : Registry A}

theorem toTriplet_of_decodes (keeps : registry.KeepsText) {triplet : Triplet} {entry : MethodResponse A}
    (unreserved : triplet.name ≠ MethodError.reservedName) (decodes : MethodResponse.Decodes registry triplet entry) :
    entry.toTriplet = .ok triplet := by
  cases decodes with
  | failure reserved => exact absurd reserved unreserved
  | success _ decodes => exact keeps.toTriplet decodes

theorem exists_normal (keeps : registry.KeepsText) {text : String} {response : Response A}
    (decoded : decode registry text = .ok response) (withoutErrors : ¬Occurs text MethodError.reservedName) :
    ∃ body, Normalises (decode registry) encode "methodResponses" 0 text response body := by
  obtain ⟨source,triplets,read,split,resolved,same⟩ := of_decode decoded
  obtain ⟨created,ids⟩ := CreatedIds.exists_written (CreatedIds.isValid_of_body Body.isField_createdIds rfl read)
  have unreserved : ∀ triplet ∈ triplets, triplet.name ≠ MethodError.reservedName := by
    intro triplet member reserved
    obtain ⟨elements,inside,made⟩ := exists_left_of_mem (mapM_eq_ok_iff.mp split) member
    exact withoutErrors ⟨_,listed_of_read read,elements,inside,triplet,Triplet.ofElements_eq_ok_iff.mp made,reserved⟩
  have written : response.entries.mapM MethodResponse.toTriplet = .ok triplets := by
    have decodes : List.Forall₂ (MethodResponse.Decodes registry) triplets response.entries :=
      (mapM_eq_ok_iff_of MethodResponse.ofTriplet_eq_ok_iff).mp resolved
    have both := (List.forall₂_and_left _ _).mpr ⟨unreserved,decodes⟩
    exact mapM_eq_ok_iff.mpr (both.flip.imp fun _ _ paired => toTriplet_of_decodes keeps paired.1 paired.2)
  have reread := decode_writtenMembers source.sessionState ids resolved
  have rebuilt := Body.ofText_writtenMembers ids source.sessionState triplets
  rw [← same] at reread
  have encoded : response.encode = .ok (.ofMembers (writtenMembers created source.sessionState triplets)) := by
    rw [same]
    exact encode_eq_ok_iff.mpr ⟨triplets,created,written,ids,rfl⟩
  exact ⟨_,normalises encoded reread (listed_of_read read) split (listed_of_read rebuilt)⟩

end Response

theorem normal_form_of_decoded {A : Type} [Writable A] (registry : Registry A) (keeps : registry.KeepsText)
    (text : String) :
    (∀ request, Request.decode registry text = .ok request →
      ∃ body, Normalises (Request.decode registry) Request.encode "methodCalls" 1 text request body) ∧
    ∀ response, Response.decode registry text = .ok response → ¬Response.Occurs text "error" →
      ∃ body, Normalises (Response.decode registry) Response.encode "methodResponses" 0 text response body :=
  ⟨fun _ => Request.exists_normal keeps,fun _ => Response.exists_normal keeps⟩

theorem normal_form_of_decoded_spelling :
    let text := "\x7b \"methodCalls\" :[ [\"\\u0061\",\x7b \"k\" : 1.50, \"k\":[ 1e2 ] \x7d , \"c\"]]," ++
      "\"createdIds\":\x7b\"k\":\"M\"\x7d,\"methodResponses\":[[\"a\",\x7b\"z\":0 ,\"b\":-0\x7d,\"d\"]] \x7d"
    let registry : Registry Arguments := SortedMap.empty.insert "a" Arguments.verbatimDecoder
    (∃ request body, Request.decode registry text = .ok request ∧
      Normalises (Request.decode registry) Request.encode "methodCalls" 1 text request body) ∧
    ∃ response body, Response.decode registry text = .ok response ∧ ¬Response.Occurs text "error" ∧
      Normalises (Response.decode registry) Response.encode "methodResponses" 0 text response body := by
  intro text registry
  have keeps : registry.KeepsText := by
    intro method decoder found raw arguments decoded
    rw [Registry.decoder?,SortedMap.find?_insert] at found
    split at found
    · cases found
      cases decoded
      rfl
    · contradiction
  have noErrors : ¬Response.Occurs text "error" := by
    intro occurs
    have checked : (Response.Body.reader.ofText text).toOption.any fun body =>
      body.entries.all (·.head? = some (.ofString "a")) := by decide +kernel
    obtain ⟨body,read,heads⟩ := exists_ok_of_any checked
    exact absurd (occurs.eq_of_listed (Response.listed_of_read read) heads) (by decide)
  have requested : (Request.decode registry text).toOption.any (·.calls.length = 1) := by decide +kernel
  have responded : (Response.decode registry text).toOption.any (·.entries.length = 1) := by decide +kernel
  obtain ⟨request,understood,_⟩ := exists_ok_of_any requested
  obtain ⟨response,answered,_⟩ := exists_ok_of_any responded
  obtain ⟨requests,responses⟩ := normal_form_of_decoded registry keeps text
  obtain ⟨body,normal⟩ := requests request understood
  obtain ⟨other,same⟩ := responses response answered noErrors
  exact ⟨⟨request,body,understood,normal⟩,response,other,answered,noErrors,same⟩

end Jmap
