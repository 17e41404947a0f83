import Jmap.Proofs.Constrained
import Jmap.Proofs.Decoding.Phases
import Jmap.Proofs.Response.RoundTrip

/-! The created ids of a request or response: its only part that is constrained, calls
and results being left to those who registered them. -/
namespace Jmap
open Json Outcome

namespace CreatedIds

def constrained (createdIds : Option CreatedIds) : List Constrained :=
  (createdIds.elim [] SortedMap.entries).flatMap fun entry => [.identifier ⟨entry.1⟩,.identifier entry.2]

theorem guarded_encodeMap (ids : CreatedIds) : Guarded .violation (Id.encodeMap ids) (constrained (some ids)) :=
  Id.guarded_encodeMap (fun id => [.identifier id]) fun entry _ => entry.2.guarded

theorem guarded_written (createdIds : Option CreatedIds) :
    Guarded .violation (written createdIds) (constrained createdIds) := by
  cases createdIds with
  | none => exact .ok []
  | some ids => exact ids.guarded_encodeMap.map _

theorem exists_written {createdIds : Option CreatedIds} (valid : ∀ part ∈ constrained createdIds, part.isValid) :
    ∃ created, written createdIds = .ok created :=
  (guarded_written createdIds).succeeds_iff.mpr valid

theorem isValid_of_read {room : Nat} {node : Node} {ids : CreatedIds} (read : reader (room + 1) node = .ok ids) :
    ∀ part ∈ constrained (some ids), part.isValid := by
  have gave : (Id.mapReader Id.reader).Gives (room + 1) .empty (some node) ids := read
  intro part member
  obtain ⟨entry,inside,which⟩ := List.mem_flatMap.mp member
  obtain ⟨checked,_,_,value⟩ := gave.of_mem inside
  simp only [List.mem_cons,List.not_mem_nil,or_false] at which
  rcases which with rfl | rfl
  · exact Id.isValid_of_checkKey checked
  · exact Id.isValid_of_read value

theorem isValid_of_body {R : Type} {fields : List (RecordField R)} {place : Nat} {get : R → Option CreatedIds}
    {start body : R} {text : String} (known : IsField fields "createdIds" place reader.nullable get)
    (none : get start = none) (read : (Reader.record fields start).ofText text = .ok body) :
    ∀ part ∈ constrained (get body), part.isValid := by
  obtain ⟨_,⟨⟩,found⟩ := Reader.of_record known (Reader.root_of_ofText read)
  cases part : (Document.ofText text).root.field? "createdIds" place with
  | none =>
    rw [part] at found
    have absent : get body = .none := found.trans none
    simp [constrained,absent]
  | some node =>
    rw [part] at found
    cases held : get body with
    | none => simp [constrained]
    | some ids =>
      rw [held] at found
      exact isValid_of_read (Reader.of_nullable found)

end CreatedIds

namespace Request
variable {A : Type}

theorem Body.isField_createdIds :
    IsField Body.fields "createdIds" 2 CreatedIds.reader.nullable Body.createdIds := by
  refine IsField.at rfl (fun _ _ => rfl) (by decide) ?_
  simp only [fields,List.eraseIdx,List.forall_mem_cons]
  refine ⟨?_,?_,by simp⟩ <;> exact fun _ _ _ => RecordField.keeps_of fun _ _ => rfl

theorem guarded_encode [Writable A] {request : Request A} {triplets : List Triplet}
    (calls : request.calls.mapM Invocation.toTriplet = .ok triplets) :
    Guarded (fun cause => .serialization (.violation cause)) request.encode
      (CreatedIds.constrained request.createdIds) := by
  rw [encode_eq,calls,ok_bind]
  exact ((CreatedIds.guarded_written request.createdIds).mapError _).map _

theorem createdIds_of_decode {registry : Registry A} {text : String} {request : Request A}
    (decoded : decode registry text = .ok request) :
    ∃ body, Body.reader.ofText text = .ok body ∧ request.createdIds = body.createdIds := by
  obtain ⟨body,_,read,_,_,same⟩ := of_decode decoded
  exact ⟨body,read,congrArg createdIds same⟩

end Request

namespace Response
variable {A : Type}

theorem Body.isField_createdIds :
    IsField Body.fields "createdIds" 1 CreatedIds.reader.nullable Body.createdIds := by
  refine IsField.at rfl (fun _ _ => rfl) (by decide) ?_
  simp only [fields,List.eraseIdx,List.forall_mem_cons]
  refine ⟨?_,?_,by simp⟩ <;> exact fun _ _ _ => RecordField.keeps_of fun _ _ => rfl

theorem guarded_encode [Writable A] {response : Response A} {triplets : List Triplet}
    (entries : response.entries.mapM MethodResponse.toTriplet = .ok triplets) :
    Guarded (fun cause => .serialization (.violation cause)) response.encode
      (CreatedIds.constrained response.createdIds) := by
  rw [encode_eq,entries,ok_bind]
  exact ((CreatedIds.guarded_written response.createdIds).mapError _).map _

theorem createdIds_of_decode {registry : Registry A} {text : String} {response : Response A}
    (decoded : decode registry text = .ok response) :
    ∃ body, Body.reader.ofText text = .ok body ∧ response.createdIds = body.createdIds := by
  obtain ⟨body,_,read,_,_,same⟩ := of_decode decoded
  exact ⟨body,read,congrArg createdIds same⟩

end Response
end Jmap
