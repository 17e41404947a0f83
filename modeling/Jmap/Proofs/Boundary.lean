import Jmap.Proofs.CreatedIds
import Jmap.Proofs.Session.RoundTrip

/-! What can be held without being valid does not get past writing, and what has been
read is valid throughout. -/
namespace Jmap
open Json Outcome

/-- Writing is refused exactly for an invalid part, the first one in written order.
Everything that a text is read to is valid, is written, and is read again as the same
if its floating-point numbers are. -/
structure Bounded {A : Type} [Writable A] (reader : Reader A) (written held : A → List Constrained)
    (doubles : A → List Binary64) : Prop where
  guarded : ∀ value, Guarded .violation (encode value) (written value)
  reads : ∀ text value, reader.ofText text = .ok value →
    (∀ part ∈ held value, part.isValid) ∧ ∃ raw, encode value = .ok raw ∧
      ((∀ x ∈ doubles value, x.Survives) → reader.ofText raw.text = .ok value)

/-- The same for the created ids of a message, provided that its calls or results are
such as can be written: the ids are what the written body has for them. -/
structure BoundedIds {M B : Type} (encode : M → Except Error Raw) (decode : String → Except Error M)
    (reader : Reader B) (ids : M → Option CreatedIds) (idsRead : B → Option CreatedIds) (WritesCalls : M → Prop) :
    Prop where
  guarded : ∀ message, WritesCalls message →
    Guarded (fun cause => .serialization (.violation cause)) (encode message) (CreatedIds.constrained (ids message))
  reads : ∀ text message, decode text = .ok message →
    (∀ part ∈ CreatedIds.constrained (ids message), part.isValid) ∧ (WritesCalls message →
      ∃ raw body, encode message = .ok raw ∧ reader.ofText raw.text = .ok body ∧ idsRead body = ids message)

theorem BlobInfo.bounded : Bounded reader constrained constrained fun _ => [] where
  guarded := guarded
  reads text info read := by
    have valid := isValid_of_read (Reader.root_of_ofText read)
    obtain ⟨raw,encoded⟩ := info.guarded.succeeds_iff.mpr valid
    exact ⟨valid,raw,encoded,fun _ => (Reader.ofText_text _ _).trans (reader_encode encoded 126)⟩

theorem CoreCapability.bounded : Bounded reader constrained constrained fun _ => [] where
  guarded := guarded
  reads text core read := by
    obtain ⟨valid,canonical⟩ := of_read (Reader.root_of_ofText read)
    obtain ⟨raw,encoded⟩ := core.guarded.succeeds_iff.mpr valid
    exact ⟨valid,raw,encoded,fun _ => (Reader.ofText_text _ _).trans (reader_encode canonical encoded 125)⟩

theorem Session.bounded :
    Bounded reader constrained (fun session => session.constrained ++ session.core.constrained) doubles where
  guarded := guarded
  reads text session read := by
    have source : ReadFrom 126 (Document.ofText text).root session := of_read (Reader.root_of_ofText read)
    obtain ⟨value,_,decoded⟩ := source.core
    have limits := (CoreCapability.of_read decoded).1
    refine ⟨fun part member => ?_,session.written,encode_eq source.isValid,source.reader_written⟩
    exact (List.mem_append.mp member).elim (source.isValid part) (limits part)

theorem Request.boundedIds {A : Type} [Writable A] (registry : Registry A) :
    BoundedIds encode (decode registry) Body.reader createdIds Body.createdIds fun request =>
      ∃ triplets, request.calls.mapM Invocation.toTriplet = .ok triplets where
  guarded _ | ⟨_,calls⟩ => guarded_encode calls
  reads text request decoded := by
    obtain ⟨body,read,same⟩ := createdIds_of_decode decoded
    have valid := same ▸ CreatedIds.isValid_of_body Body.isField_createdIds rfl read
    refine ⟨valid,fun ⟨triplets,calls⟩ => ?_⟩
    obtain ⟨created,ids⟩ := CreatedIds.exists_written valid
    have rereads := Body.ofText_writtenMembers ids request.uses triplets
    exact ⟨_,_,encode_eq_ok_iff.mpr ⟨triplets,created,calls,ids,rfl⟩,rereads,rfl⟩

theorem Response.boundedIds {A : Type} [Writable A] (registry : Registry A) :
    BoundedIds encode (decode registry) Body.reader createdIds Body.createdIds fun response =>
      ∃ triplets, response.entries.mapM MethodResponse.toTriplet = .ok triplets where
  guarded _ | ⟨_,entries⟩ => guarded_encode entries
  reads text response decoded := by
    obtain ⟨body,read,same⟩ := createdIds_of_decode decoded
    have valid := same ▸ CreatedIds.isValid_of_body Body.isField_createdIds rfl read
    refine ⟨valid,fun ⟨triplets,entries⟩ => ?_⟩
    obtain ⟨created,ids⟩ := CreatedIds.exists_written valid
    have rereads := Body.ofText_writtenMembers ids response.sessionState triplets
    exact ⟨_,_,encode_eq_ok_iff.mpr ⟨triplets,created,entries,ids,rfl⟩,rereads,rfl⟩

theorem only_valid_crosses {A : Type} [Writable A] (registry : Registry A) :
    Bounded BlobInfo.reader BlobInfo.constrained BlobInfo.constrained (fun _ => []) ∧
    Bounded CoreCapability.reader CoreCapability.constrained CoreCapability.constrained (fun _ => []) ∧
    Bounded Session.reader Session.constrained (fun session => session.constrained ++ session.core.constrained)
      Session.doubles ∧
    (BoundedIds Request.encode (Request.decode registry) Request.Body.reader Request.createdIds Request.Body.createdIds
      fun request => ∃ triplets, request.calls.mapM Invocation.toTriplet = .ok triplets) ∧
    BoundedIds Response.encode (Response.decode registry) Response.Body.reader Response.createdIds Response.Body.createdIds
      fun response => ∃ triplets, response.entries.mapM MethodResponse.toTriplet = .ok triplets :=
  ⟨BlobInfo.bounded,CoreCapability.bounded,Session.bounded,Request.boundedIds registry,Response.boundedIds registry⟩

theorem only_valid_crosses_blob :
    let info : BlobInfo := ⟨⟨"A1"⟩,⟨"b 1"⟩,"text/plain",⟨0x20000000000000⟩⟩
    let text := "\x7b\"size\":9007199254740991,\"blobId\":\"B1\",\"type\":\"é\",\"accountId\":\"A1\"\x7d"
    encode info = .error (.violation (.invalidId "b 1")) ∧
      ∃ received raw, BlobInfo.reader.ofText text = .ok received ∧ received.size = ⟨0x1fffffffffffff⟩ ∧
        encode received = .ok raw ∧ BlobInfo.reader.ofText raw.text = .ok received := by
  intro info text
  obtain ⟨⟨guarded,reads⟩,_⟩ := only_valid_crosses (SortedMap.empty : Registry Value)
  have checked : (BlobInfo.reader.ofText text).toOption.any (·.size = ⟨0x1fffffffffffff⟩) := by decide +kernel
  obtain ⟨received,read,size⟩ := exists_ok_of_any checked
  obtain ⟨_,raw,encoded,rereads⟩ := reads text received read
  have refused := (guarded info).fails (.identifier ⟨"b 1"⟩) (by decide +kernel)
  exact ⟨refused,received,raw,read,of_decide_eq_true size,encoded,rereads (by simp)⟩

end Jmap
