import Jmap.Proofs.PropertyBag
import Jmap.Proofs.Request.RoundTrip
import Jmap.Response

/-! What is written for a response is decoded to that response with its method errors
normalised. Results and errors share one written form and are told apart by name. -/
namespace Jmap
open Json Outcome

theorem MethodError.isObject_toRaw (error : MethodError) : error.toRaw.isObject := by
  change (Node.ofMembers (Value.toMembers error.toBag.entries)).isObject
  cases Value.toMembers error.toBag.entries <;> rfl

namespace MethodResponse
variable {A : Type}

def normalised : MethodResponse A → MethodResponse A
  | .success result => .success result
  | .failure error => .failure error.normalised

variable [Writable A]

theorem toTriplet_failure (error : MethodError) : (failure error : MethodResponse A).toTriplet =
    .ok ⟨MethodError.reservedName,error.toRaw,error.callId,error.isObject_toRaw⟩ :=
  dif_pos error.isObject_toRaw

theorem ofTriplet_toTriplet {registry : Registry A} {entry : MethodResponse A} {triplet : Triplet}
    (written : entry.toTriplet = .ok triplet)
    (recovers : ∀ result, entry = .success result →
      result.name ≠ MethodError.reservedName ∧ registry.Recovers result)
    (readsBack : ∀ error, entry = .failure error → PropertyBag.ReadsBack (error.properties.erase "type")) :
    ofTriplet registry triplet = .ok entry.normalised := by
  cases entry with
  | success result =>
    obtain ⟨unreserved,understood⟩ := recovers result rfl
    have named := (Invocation.toTriplet_eq_ok_iff.mp written).2.1
    have decoded := Invocation.decodeCall_toTriplet written understood
    rw [ofTriplet,if_neg (named ▸ unreserved),decoded]
    rfl
  | failure error =>
    cases (toTriplet_failure error).symm.trans written
    rw [ofTriplet,if_pos rfl,MethodError.ofArguments_toRaw (readsBack error rfl)]
    rfl

theorem mapM_ofTriplet {registry : Registry A} {entries : List (MethodResponse A)} {triplets : List Triplet}
    (written : entries.mapM toTriplet = .ok triplets)
    (recovers : ∀ result, .success result ∈ entries →
      result.name ≠ MethodError.reservedName ∧ registry.Recovers result)
    (readsBack : ∀ error, .failure error ∈ entries → PropertyBag.ReadsBack (error.properties.erase "type")) :
    triplets.mapM (ofTriplet registry) = .ok (entries.map normalised) := by
  rw [mapM_eq_ok_iff] at written ⊢
  induction written with
  | nil => exact .nil
  | @cons entry triplet entries triplets head tail ih =>
    have first : ofTriplet registry triplet = .ok entry.normalised := ofTriplet_toTriplet head
      (fun result same => recovers result (by simp [same])) (fun error same => readsBack error (by simp [same]))
    have others := ih (fun result member => recovers result (by simp [member]))
      (fun error member => readsBack error (by simp [member]))
    exact .cons first others

end MethodResponse

namespace Response
variable {A : Type}

def normalised (response : Response A) : Response A :=
  {response with entries := response.entries.map MethodResponse.normalised}

def writtenMembers (created : List (String × Raw)) (sessionState : String) (triplets : List Triplet) :
    List (String × Raw) :=
  created ++ [("sessionState",.ofString sessionState),("methodResponses",.ofList (triplets.map Triplet.toRaw))]

theorem encode_eq [Writable A] (response : Response A) : response.encode = do
    let triplets ← response.entries.mapM MethodResponse.toTriplet
    let created ← (CreatedIds.written response.createdIds).mapError .serialization
    return .ofMembers (writtenMembers created response.sessionState triplets) := by
  obtain ⟨entries,createdIds,sessionState⟩ := response
  refine bind_congr fun triplets => ?_
  cases createdIds with
  | none => simp [CreatedIds.members,CreatedIds.written,writtenMembers,encodeMembers]
  | some ids =>
    cases written : Id.encodeMap ids <;>
      simp [CreatedIds.members,CreatedIds.written,writtenMembers,encodeMembers,written]

theorem encode_eq_ok_iff [Writable A] {response : Response A} {body : Raw} :
    response.encode = .ok body ↔ ∃ triplets created, response.entries.mapM MethodResponse.toTriplet = .ok triplets ∧
      CreatedIds.written response.createdIds = .ok created ∧
      Raw.ofMembers (writtenMembers created response.sessionState triplets) = body := by
  simp [encode_eq,bind_eq_ok_iff,mapError_eq_ok_iff]

theorem Body.reader_writtenMembers {createdIds : Option CreatedIds} {created : List (String × Raw)}
    (written : CreatedIds.written createdIds = .ok created) (sessionState : String) (triplets : List Triplet) :
    Body.reader.ofRaw (.ofMembers (writtenMembers created sessionState triplets)) =
      .ok ⟨triplets.map Triplet.elements,createdIds,sessionState⟩ := by
  have entries := Triplet.list_elementsReader triplets 124
  cases createdIds with
  | none =>
    cases written
    simp [Reader.ofRaw,Reader.maxDepth,Body.reader,Body.fields,Raw.ofMembers,writtenMembers,Reader.record_ofMembers,
      readNamed,readField,RecordField.of,Reader.map,entries,finish]
  | some ids =>
    obtain ⟨raw,encoded,rfl⟩ := map_eq_ok_iff.mp written
    have ids := CreatedIds.nullable_encodeMap encoded 125
    simp [Reader.ofRaw,Reader.maxDepth,Body.reader,Body.fields,Raw.ofMembers,writtenMembers,Reader.record_ofMembers,
      readNamed,readField,RecordField.of,Reader.map,entries,ids,finish]

theorem Body.ofText_writtenMembers {createdIds : Option CreatedIds} {created : List (String × Raw)}
    (written : CreatedIds.written createdIds = .ok created) (sessionState : String) (triplets : List Triplet) :
    Body.reader.ofText (Raw.ofMembers (writtenMembers created sessionState triplets)).text =
      .ok ⟨triplets.map Triplet.elements,createdIds,sessionState⟩ := by
  rw [Reader.ofText_text,Body.reader_writtenMembers written]

theorem decode_writtenMembers {registry : Registry A} {createdIds : Option CreatedIds} {created : List (String × Raw)}
    {triplets : List Triplet} {entries : List (MethodResponse A)} (sessionState : String)
    (written : CreatedIds.written createdIds = .ok created)
    (decoded : triplets.mapM (MethodResponse.ofTriplet registry) = .ok entries) :
    decode registry (Raw.ofMembers (writtenMembers created sessionState triplets)).text =
      .ok ⟨entries,createdIds,sessionState⟩ := by
  rw [decode,Body.ofText_writtenMembers written,mapError_ok,ok_bind,Body.decode,Triplet.mapM_ofElements,ok_bind,decoded]
  rfl

theorem normalised_eq {response : Response A}
    (untyped : ∀ error, .failure error ∈ response.entries → error.properties.find? "type" = none)
    (canonical : ∀ error, .failure error ∈ response.entries → error.code.IsCanonical) :
    response.normalised = response := by
  have unchanged : ∀ entry ∈ response.entries, entry.normalised = entry := by
    intro entry member
    cases entry with
    | success result => rfl
    | failure error =>
      rw [MethodResponse.normalised,MethodError.normalised_eq (untyped error member) (canonical error member)]
  rw [normalised,List.map_congr_left unchanged,List.map_id']

/-- A response that can be written is decoded to itself with its errors normalised,
and to itself if there is nothing to normalise. -/
theorem decode_encoded_response [Writable A] (registry : Registry A) (response : Response A) (body : Raw)
    (encoded : response.encode = .ok body)
    (recovers : ∀ result, .success result ∈ response.entries →
      result.name ≠ MethodError.reservedName ∧ registry.Recovers result)
    (readsBack : ∀ error, .failure error ∈ response.entries →
      PropertyBag.ReadsBack (error.properties.erase "type")) :
    decode registry body.text = .ok response.normalised ∧
      ((∀ error, .failure error ∈ response.entries →
        error.properties.find? "type" = none ∧ error.code.IsCanonical) → response.normalised = response) := by
  obtain ⟨triplets,created,entries,written,rfl⟩ := encode_eq_ok_iff.mp encoded
  have read := Body.reader_writtenMembers written response.sessionState triplets
  have decoded := MethodResponse.mapM_ofTriplet entries recovers readsBack
  constructor
  · rw [decode,Reader.ofText_text,read,mapError_ok,ok_bind,Body.decode,Triplet.mapM_ofElements,ok_bind,decoded]
    rfl
  · intro plain
    exact normalised_eq (fun error member => (plain error member).1) (fun error member => (plain error member).2)

theorem decode_encoded_response_mixed :
    let result : Invocation Value := ⟨"Core/\"echo\"","c\x00",.object [("k",.array [.null])]⟩
    let error : MethodError := ⟨"c1",.other "notFound",
      SortedMap.ofList [("type",.boolean true),("description",.string "gone"),("x",.number (.integer 3))]⟩
    let registry : Registry Value := SortedMap.empty.insert result.name (.typed Reader.value)
    let response : Response Value := ⟨[.failure error,.success result,.failure (.new .serverFail "c2")],some .empty,"s\\"⟩
    (∃ body, response.encode = .ok body ∧ decode registry body.text = .ok response.normalised) ∧
      error.normalised = ⟨"c1",.notFound,SortedMap.ofList [("description",.string "gone"),("x",.number (.integer 3))]⟩ := by
  intro result error registry response
  have recovers : ∀ other, .success other ∈ response.entries →
      other.name ≠ MethodError.reservedName ∧ registry.Recovers other := by
    intro other member
    have same : other = result := by simpa [response] using member
    subst same
    exact ⟨by decide,_,_,rfl,rfl,rfl⟩
  have readsBack : ∀ other, .failure other ∈ response.entries →
      PropertyBag.ReadsBack (other.properties.erase "type") := by
    intro other member
    have either : other = error ∨ other = .new .serverFail "c2" := by simpa [response] using member
    rcases either with rfl | rfl
    · have whole : PropertyBag.ReadsBack error.properties := rfl
      exact whole.erase "type"
    · rfl
  exact ⟨⟨_,rfl,(decode_encoded_response registry response _ rfl recovers readsBack).1⟩,rfl⟩

end Response
end Jmap
