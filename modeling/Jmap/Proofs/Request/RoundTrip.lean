import Jmap.Proofs.Envelope

/-! What is written for a request is decoded to that request: the capabilities and
the calls in their order, and the created ids, none or empty alike. -/
namespace Jmap
open Json Outcome

/-- The registry understands what is written for the arguments of a call as those arguments. -/
def Registry.Recovers {A : Type} [Writable A] (registry : Registry A) (call : Invocation A) : Prop :=
  ∃ decoder arguments, registry.decoder? call.name = some decoder ∧
    encode call.arguments = .ok arguments ∧ decoder arguments = .ok call.arguments

namespace Invocation
variable {A : Type} [Writable A]

theorem toTriplet_eq_ok_iff {call : Invocation A} {triplet : Triplet} :
    call.toTriplet = .ok triplet ↔
      encode call.arguments = .ok triplet.arguments ∧ triplet.name = call.name ∧ triplet.callId = call.callId := by
  obtain ⟨name,arguments,callId,object⟩ := triplet
  simp only [toTriplet,bind_eq_ok_iff,mapError_eq_ok_iff]
  constructor
  · rintro ⟨written,encoded,built⟩
    unfold Triplet.new at built
    split at built
    · cases built
      exact ⟨encoded,rfl,rfl⟩
    · contradiction
  · rintro ⟨encoded,rfl,rfl⟩
    exact ⟨arguments,encoded,dif_pos object⟩

theorem decodeCall_toTriplet {registry : Registry A} {call : Invocation A} {triplet : Triplet}
    (written : call.toTriplet = .ok triplet) (recovers : registry.Recovers call) :
    registry.decodeCall triplet = .ok call := by
  obtain ⟨encoded,name,callId⟩ := toTriplet_eq_ok_iff.mp written
  obtain ⟨decoder,arguments,found,same,decoded⟩ := recovers
  cases same.symm.trans encoded
  have understood : registry.decodeArguments triplet = .ok call.arguments := by
    simp [Registry.decodeArguments,name,found,decoded]
  simp [Registry.decodeCall,understood,name,callId]

theorem mapM_decodeCall {registry : Registry A} {calls : List (Invocation A)} {triplets : List Triplet}
    (written : calls.mapM toTriplet = .ok triplets) (recovers : ∀ call ∈ calls, registry.Recovers call) :
    triplets.mapM registry.decodeCall = .ok calls := by
  rw [mapM_eq_ok_iff] at written ⊢
  induction written with
  | nil => exact .nil
  | @cons call triplet calls triplets head tail ih =>
    exact .cons (decodeCall_toTriplet head (recovers call (by simp)))
      (ih fun other member => recovers other (by simp [member]))

end Invocation

theorem encode_texts (texts : List String) : encode texts = .ok (.ofList (texts.map Raw.ofString)) := by
  change Raw.ofList <$> texts.mapM (fun text => (pure (Raw.ofString text) : Except Defect Raw)) = _
  rw [List.mapM_pure]
  rfl

namespace CreatedIds

def written : Option CreatedIds → Except Defect (List (String × Raw))
  | none => .ok []
  | some ids => (fun raw => [("createdIds",raw)]) <$> Id.encodeMap ids

end CreatedIds

namespace Request
variable {A : Type}

/-- The members of a body, `created` being those for the created ids. -/
def writtenMembers (uses : List String) (created : List (String × Raw)) (triplets : List Triplet) :
    List (String × Raw) :=
  [("using",.ofList (uses.map Raw.ofString))] ++ created ++ [("methodCalls",.ofList (triplets.map Triplet.toRaw))]

theorem encode_eq [Writable A] (request : Request A) : request.encode = do
    let triplets ← request.calls.mapM Invocation.toTriplet
    let created ← (CreatedIds.written request.createdIds).mapError .serialization
    return .ofMembers (writtenMembers request.uses created triplets) := by
  obtain ⟨uses,calls,createdIds⟩ := request
  refine bind_congr fun triplets => ?_
  cases createdIds with
  | none => simp [CreatedIds.members,CreatedIds.written,writtenMembers,encodeMembers,encode_texts]
  | some ids =>
    cases written : Id.encodeMap ids <;>
      simp [CreatedIds.members,CreatedIds.written,writtenMembers,encodeMembers,encode_texts,written]

theorem encode_eq_ok_iff [Writable A] {request : Request A} {body : Raw} :
    request.encode = .ok body ↔ ∃ triplets created, request.calls.mapM Invocation.toTriplet = .ok triplets ∧
      CreatedIds.written request.createdIds = .ok created ∧
      Raw.ofMembers (writtenMembers request.uses created triplets) = body := by
  simp [encode_eq,bind_eq_ok_iff,mapError_eq_ok_iff]

theorem Body.reader_writtenMembers {createdIds : Option CreatedIds} {created : List (String × Raw)}
    (written : CreatedIds.written createdIds = .ok created) (uses : List String) (triplets : List Triplet) :
    Body.reader.ofRaw (.ofMembers (writtenMembers uses created triplets)) =
      .ok ⟨uses,triplets.map Triplet.elements,createdIds⟩ := by
  have texts : Reader.list .text 126 (Raw.ofList (uses.map Raw.ofString)).node = .ok uses :=
    Reader.list_map Reader.text 125 fun text _ => Reader.text_ofString 125 text
  have calls := Triplet.list_elementsReader triplets 124
  cases createdIds with
  | none =>
    cases written
    simp [Reader.ofRaw,Reader.maxDepth,Body.reader,Body.fields,Raw.ofMembers,writtenMembers,Reader.record_ofMembers,
      readNamed,readField,RecordField.of,Reader.map,texts,calls,finish]
  | some ids =>
    obtain ⟨raw,encoded,rfl⟩ := map_eq_ok_iff.mp written
    have ids := CreatedIds.nullable_encodeMap encoded 125
    simp [Reader.ofRaw,Reader.maxDepth,Body.reader,Body.fields,Raw.ofMembers,writtenMembers,Reader.record_ofMembers,
      readNamed,readField,RecordField.of,Reader.map,texts,calls,ids,finish]

theorem Body.ofText_writtenMembers {createdIds : Option CreatedIds} {created : List (String × Raw)}
    (written : CreatedIds.written createdIds = .ok created) (uses : List String) (triplets : List Triplet) :
    Body.reader.ofText (Raw.ofMembers (writtenMembers uses created triplets)).text =
      .ok ⟨uses,triplets.map Triplet.elements,createdIds⟩ := by
  rw [Reader.ofText_text,Body.reader_writtenMembers written]

theorem decode_writtenMembers {registry : Registry A} {createdIds : Option CreatedIds} {created : List (String × Raw)}
    {triplets : List Triplet} {calls : List (Invocation A)} (uses : List String)
    (written : CreatedIds.written createdIds = .ok created) (decoded : triplets.mapM registry.decodeCall = .ok calls) :
    decode registry (Raw.ofMembers (writtenMembers uses created triplets)).text = .ok ⟨uses,calls,createdIds⟩ := by
  rw [decode,Body.ofText_writtenMembers written,mapError_ok,ok_bind,Body.decode,Triplet.mapM_ofElements,ok_bind,decoded]
  rfl

/-- A request that can be written is decoded to itself by every registry that
recovers the arguments of its calls. -/
theorem decode_encoded_request [Writable A] (registry : Registry A) (request : Request A) (body : Raw)
    (encoded : request.encode = .ok body) (recovers : ∀ call ∈ request.calls, registry.Recovers call) :
    decode registry body.text = .ok request := by
  obtain ⟨triplets,created,calls,written,rfl⟩ := encode_eq_ok_iff.mp encoded
  have read := Body.reader_writtenMembers written request.uses triplets
  have decoded := Invocation.mapM_decodeCall calls recovers
  rw [decode,Reader.ofText_text,read,mapError_ok,ok_bind,Body.decode,Triplet.mapM_ofElements,ok_bind,decoded]
  rfl

theorem decode_encoded_request_quoted :
    let call : Invocation Value := ⟨"Core/\"echo\"\\\x01é","c\n\t😀",.object [("k",.array [.null,.number (.integer (-7))])]⟩
    let registry : Registry Value := SortedMap.empty.insert call.name (.typed Reader.value)
    let request : Request Value := ⟨["urn:a","urn:a"],[call,call],some (SortedMap.empty.insert "k1" ⟨"M1"⟩)⟩
    (∀ call ∈ request.calls, registry.Recovers call) ∧
      ∃ body, request.encode = .ok body ∧ decode registry body.text = .ok request := by
  intro call registry request
  have recovers : ∀ call ∈ request.calls, registry.Recovers call := by
    intro other member
    have same : other = call := by simpa [request] using member
    subst same
    exact ⟨_,_,rfl,rfl,rfl⟩
  exact ⟨recovers,_,rfl,decode_encoded_request registry request _ rfl recovers⟩

end Request
end Jmap
