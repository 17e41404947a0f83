import Jmap.Proofs.Json.Rereading
import Jmap.Proofs.SortedMap
import Jmap.Request

/-! The parts that request and response bodies share, written and read back: maps
with identifiers as keys, and the triplets of calls. -/
namespace Jmap
open Json Outcome

namespace Id

theorem encode_eq_ok_iff {id : Id} {raw : Raw} :
    encode id = .ok raw ↔ id.isValid ∧ Raw.ofString id.text = raw := by
  change (if id.isValid then _ else _) = _ ↔ _
  split <;> simp_all

theorem reader_encode {id : Id} {raw : Raw} (encoded : encode id = .ok raw) (room : Nat) :
    reader room raw.node = .ok id := by
  obtain ⟨valid,rfl⟩ := encode_eq_ok_iff.mp encoded
  simp [reader,Reader.andThen,new,valid]

theorem mapReader_encodeMap {A : Type} [Writable A] {reader : Reader A} {room : Nat} {map : SortedMap A} {raw : Raw}
    (rereads : ∀ entry ∈ map.entries, ∀ part, encode entry.2 = .ok part → reader room part.node = .ok entry.2)
    (encoded : encodeMap map = .ok raw) : mapReader reader (room + 1) raw.node = .ok map := by
  refine Reader.checkedMap_encoded (fun entry member part written => ?_) encoded
  obtain ⟨⟨⟩,checked,encoded⟩ := bind_eq_ok_iff.mp written
  exact ⟨checked,rereads entry member part encoded⟩

end Id

theorem CreatedIds.reader_encodeMap {ids : CreatedIds} {raw : Raw} (encoded : Id.encodeMap ids = .ok raw)
    (room : Nat) : CreatedIds.reader (room + 1) raw.node = .ok ids :=
  Id.mapReader_encodeMap (fun _ _ _ written => Id.reader_encode written room) encoded

theorem CreatedIds.nullable_encodeMap {ids : CreatedIds} {raw : Raw} (encoded : Id.encodeMap ids = .ok raw)
    (room : Nat) : CreatedIds.reader.nullable (room + 1) raw.node = .ok (some ids) := by
  have present : raw.node ≠ .null := by
    obtain ⟨written,_,rfl⟩ := encodeMembers_eq_ok_iff.mp encoded
    cases written <;> exact Node.noConfusion
  rw [Reader.nullable_of_ne _ _ present,reader_encodeMap encoded]
  rfl

namespace Triplet

def elements (triplet : Triplet) : List Raw := [.ofString triplet.name,triplet.arguments,.ofString triplet.callId]

theorem elementsReader_toRaw (triplet : Triplet) (room : Nat) :
    elementsReader (room + 1) triplet.toRaw.node = .ok triplet.elements := by
  have kept : ∀ element ∈ triplet.elements, Reader.raw room (id element).node = .ok element :=
    fun element _ => Reader.raw_node room element
  have reads := Reader.list_map Reader.raw room kept
  rwa [List.map_id] at reads

theorem ofElements_elements (triplet : Triplet) : ofElements triplet.elements = .ok triplet := by
  obtain ⟨name,arguments,callId,object⟩ := triplet
  simp [elements,ofElements,Reader.ofRaw,object]

theorem list_elementsReader (triplets : List Triplet) (room : Nat) :
    Reader.list elementsReader (room + 2) (Raw.ofList (triplets.map toRaw)).node = .ok (triplets.map elements) := by
  change Reader.list elementsReader (room + 2) (.ofList ((triplets.map toRaw).map Raw.node)) = _
  rw [Reader.list_ofList,mapM_eq_ok_iff,List.map_map,List.forall₂_map_left_iff,List.forall₂_map_right_iff,
    List.forall₂_same]
  exact fun triplet _ => elementsReader_toRaw triplet room

theorem mapM_ofElements (triplets : List Triplet) : (triplets.map elements).mapM ofElements = .ok triplets := by
  rw [mapM_eq_ok_iff,List.forall₂_map_left_iff,List.forall₂_same]
  exact fun triplet _ => ofElements_elements triplet

end Triplet
end Jmap
