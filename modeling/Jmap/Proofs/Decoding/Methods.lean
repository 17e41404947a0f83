import Jmap.Client
import Jmap.Proofs.Decoding.Phases
import Jmap.Proofs.Json.Rereading

/-! What a registry matters for. A body is decoded alike by registries that agree on the
methods which occur in it, whatever else they hold; the name that is reserved for method
errors is looked up in none. -/
namespace Jmap
open Json Outcome

theorem Json.Raw.node_injective : Function.Injective Raw.node := by
  rintro ⟨node,closed⟩ ⟨_,_⟩ ⟨⟩
  rfl

theorem Listed.unique {text name : String} {place : Nat} {calls others : List (List Raw)}
    (left : Listed text name place calls) (right : Listed text name place others) : calls = others := by
  obtain ⟨_,left⟩ := left
  obtain ⟨_,right⟩ := right
  cases part : (Document.ofText text).root.field? name place with
  | none =>
    rw [part] at left right
    exact left.trans right.symm
  | some node =>
    rw [part] at left right
    obtain ⟨nodes,items,spelled⟩ := left
    obtain ⟨_,same,respelled⟩ := right
    cases Option.some.inj (items.symm.trans same)
    refine List.right_unique_forall₂' (fun node elements _ here there => ?_) spelled respelled
    exact List.map_injective_iff.mpr Raw.node_injective (Option.some.inj (here.symm.trans there))

/-- A well-formed call of this method stands in the text. -/
def Occurs (text name : String) (place : Nat) (method : String) : Prop :=
  ∃ calls, Listed text name place calls ∧
    ∃ elements ∈ calls, ∃ triplet, Triplet.Spelled elements triplet ∧ triplet.name = method

/-- Where all calls have one name, no other method occurs. -/
theorem Occurs.eq_of_listed {text name method only : String} {place : Nat} {calls : List (List Raw)}
    (source : Listed text name place calls) (heads : calls.all (·.head? = some (.ofString only)))
    (occurs : Occurs text name place method) : method = only := by
  obtain ⟨listed,found,elements,member,triplet,⟨head,callId,rfl,named,_⟩,rfl⟩ := occurs
  cases found.unique source
  have spelled : head = .ofString only := by simpa using List.all_eq_true.mp heads _ member
  rw [spelled,Reader.ofRaw,Reader.text_ofString] at named
  exact (Except.ok.inj named).symm

/-- Two ways to decode a triplet that differ for no method of the text give the same. -/
theorem phases_congr {C : Type} {text name : String} {place : Nat} {calls : List (List Raw)}
    (source : Listed text name place calls) {decode other : Triplet → Except Error C}
    (same : ∀ triplet : Triplet, Occurs text name place triplet.name → decode triplet = other triplet) :
    (calls.mapM Triplet.ofElements >>= fun triplets => triplets.mapM decode) =
      (calls.mapM Triplet.ofElements >>= fun triplets => triplets.mapM other) := by
  cases split : calls.mapM Triplet.ofElements with
  | error => rfl
  | ok triplets =>
    rw [ok_bind,ok_bind]
    apply mapM_congr
    intro triplet member
    obtain ⟨elements,inside,spelled⟩ := exists_left_of_mem (mapM_eq_ok_iff.mp split) member
    exact same triplet ⟨calls,source,elements,inside,triplet,Triplet.ofElements_eq_ok_iff.mp spelled,rfl⟩

namespace Registry
variable {A : Type}

theorem decodeCall_congr {registry other : Registry A} {triplet : Triplet}
    (agree : registry.decoder? triplet.name = other.decoder? triplet.name) :
    registry.decodeCall triplet = other.decodeCall triplet := by
  rw [decodeCall,decodeCall,decodeArguments,decodeArguments,agree]

theorem ofTriplet_congr {registry other : Registry A} {triplet : Triplet}
    (agree : triplet.name ≠ MethodError.reservedName → registry.decoder? triplet.name = other.decoder? triplet.name) :
    MethodResponse.ofTriplet registry triplet = MethodResponse.ofTriplet other triplet := by
  unfold MethodResponse.ofTriplet
  split
  · rfl
  next unreserved => rw [decodeCall_congr (agree unreserved)]

/-- Nothing is found that was not found before, nor lost, under a name that is not redefined. -/
theorem decoder?_merge {registry more : Registry A} {method : String}
    (kept : ∀ decoder, more.decoder? method = some decoder → registry.decoder? method = some decoder) :
    decoder? (registry.merge more) method = registry.decoder? method := by
  rw [decoder?,SortedMap.find?_merge]
  cases found : more.find? method with
  | none => rfl
  | some decoder => exact (kept decoder found).symm

end Registry

namespace Request
variable {A : Type}

abbrev Occurs (text method : String) : Prop := Jmap.Occurs text "methodCalls" 1 method

theorem listed_of_read {text : String} {body : Body} (read : Body.reader.ofText text = .ok body) :
    Listed text "methodCalls" 1 body.calls :=
  Jmap.listed_of_read Body.isField_calls Body.whole_fields rfl read

theorem decode_congr {registry other : Registry A} {text : String}
    (agree : ∀ method, Occurs text method → registry.decoder? method = other.decoder? method) :
    decode registry text = decode other text := by
  unfold decode
  cases read : Body.reader.ofText text with
  | error => rfl
  | ok body =>
    rw [mapError_ok,ok_bind,ok_bind,Body.decode_eq,Body.decode_eq]
    rw [phases_congr (listed_of_read read) fun triplet occurs => Registry.decodeCall_congr (agree _ occurs)]

end Request

namespace Response
variable {A : Type}

abbrev Occurs (text method : String) : Prop := Jmap.Occurs text "methodResponses" 0 method

theorem listed_of_read {text : String} {body : Body} (read : Body.reader.ofText text = .ok body) :
    Listed text "methodResponses" 0 body.entries :=
  Jmap.listed_of_read Body.isField_entries Body.whole_fields rfl read

theorem decode_congr {registry other : Registry A} {text : String}
    (agree : ∀ method, Occurs text method → method ≠ MethodError.reservedName →
      registry.decoder? method = other.decoder? method) : decode registry text = decode other text := by
  unfold decode
  cases read : Body.reader.ofText text with
  | error => rfl
  | ok body =>
    rw [mapError_ok,ok_bind,ok_bind,Body.decode_eq,Body.decode_eq]
    rw [phases_congr (listed_of_read read) fun triplet occurs => Registry.ofTriplet_congr (agree _ occurs)]

/-- What an entry has from the elements that stand for it in the text. -/
def Mirrors (elements : List Raw) (entry : MethodResponse A) : Prop :=
  ∃ triplet, Triplet.Spelled elements triplet ∧ entry.name = triplet.name ∧ entry.callId = triplet.callId ∧
    (entry.isError ↔ triplet.name = "error")

theorem mirrors_of_decodes {registry : Registry A} {elements : List Raw} {triplet : Triplet} {entry : MethodResponse A}
    (spelled : Triplet.Spelled elements triplet) (decoded : MethodResponse.Decodes registry triplet entry) :
    Mirrors elements entry := by
  refine ⟨triplet,spelled,?_⟩
  cases decoded with
  | failure reserved identified _ => exact ⟨reserved.symm,identified,iff_of_true rfl reserved⟩
  | success unreserved decoded =>
    obtain ⟨named,identified,_⟩ := decoded
    exact ⟨named,identified,iff_of_false Bool.false_ne_true unreserved⟩

theorem mirrors_of_decode {registry : Registry A} {text : String} {response : Response A}
    (decoded : decode registry text = .ok response) :
    ∃ calls, Listed text "methodResponses" 0 calls ∧ List.Forall₂ Mirrors calls response.entries := by
  obtain ⟨body,triplets,read,split,resolved,_⟩ := of_decode decoded
  have spelled := (mapM_eq_ok_iff_of Triplet.ofElements_eq_ok_iff).mp split
  have decodes : List.Forall₂ (MethodResponse.Decodes registry) triplets response.entries :=
    (mapM_eq_ok_iff_of MethodResponse.ofTriplet_eq_ok_iff).mp resolved
  refine ⟨body.entries,listed_of_read read,forall₂_comp ?_ spelled decodes⟩
  exact fun _ _ _ => mirrors_of_decodes

end Response

theorem decode_by_occurring_methods {A : Type} (text : String) :
    (∀ registry other : Registry A,
      (∀ method, Request.Occurs text method → registry.decoder? method = other.decoder? method) →
      Request.decode registry text = Request.decode other text) ∧
    (∀ registry other : Registry A,
      (∀ method, Response.Occurs text method → method ≠ "error" →
        registry.decoder? method = other.decoder? method) →
      Response.decode registry text = Response.decode other text) ∧
    (∀ (registry : Registry A) response, Response.decode registry text = .ok response →
      ∃ calls, Listed text "methodResponses" 0 calls ∧ List.Forall₂ Response.Mirrors calls response.entries) ∧
    ∀ (client : Client A) (more : Registry A),
      ((∀ method, Request.Occurs text method → ∀ decoder,
          more.decoder? method = some decoder → client.registry.decoder? method = some decoder) →
        Request.decode (client.enable more).registry text = Request.decode client.registry text) ∧
      ((∀ method, Response.Occurs text method → method ≠ "error" → ∀ decoder,
          more.decoder? method = some decoder → client.registry.decoder? method = some decoder) →
        Response.decode (client.enable more).registry text = Response.decode client.registry text) := by
  refine ⟨fun _ _ => Request.decode_congr,fun _ _ => Response.decode_congr,
    fun _ _ => Response.mirrors_of_decode,fun client more => ⟨fun kept => ?_,fun kept => ?_⟩⟩
  · apply Request.decode_congr
    exact fun method occurs => Registry.decoder?_merge (kept method occurs)
  · apply Response.decode_congr
    exact fun method occurs unreserved => Registry.decoder?_merge (kept method occurs unreserved)

theorem decode_by_occurring_methods_overlay :
    let text := "\x7b\"methodCalls\":[[\"a\",\x7b\x7d,\"c\"]],\"methodResponses\":[[\"error\",\x7b\"type\":\"x\"\x7d,\"d\"]]\x7d"
    let registry : Registry Value := SortedMap.empty.insert "a" (.typed Reader.value)
    let more : Registry Value := (SortedMap.empty.insert "b" (.typed Reader.value)).insert "error" (.typed Reader.value)
    let client : Client Value := ⟨.scripted [],"","",registry,none⟩
    Request.decode registry text = Request.decode (registry.merge more) text ∧
      Response.decode registry text = Response.decode more text ∧
      (∃ calls response, Response.decode registry text = .ok response ∧ Listed text "methodResponses" 0 calls ∧
        List.Forall₂ Response.Mirrors calls response.entries) ∧
      Request.decode (client.enable more).registry text = Request.decode registry text ∧
      Response.decode (client.enable more).registry text = Response.decode registry text := by
  intro text registry more client
  obtain ⟨requests,responses,mirrored,enabled⟩ := decode_by_occurring_methods (A := Value) text
  have inRequest : ∀ method, Request.Occurs text method → method = "a" := by
    intro method occurs
    have checked : (Request.Body.reader.ofText text).toOption.any fun body =>
      body.calls.all (·.head? = some (.ofString "a")) := by decide +kernel
    obtain ⟨body,read,heads⟩ := exists_ok_of_any checked
    exact occurs.eq_of_listed (Request.listed_of_read read) heads
  have inResponse : ∀ method, Response.Occurs text method → method = "error" := by
    intro method occurs
    have checked : (Response.Body.reader.ofText text).toOption.any fun body =>
      body.entries.all (·.head? = some (.ofString "error")) := by decide +kernel
    obtain ⟨body,read,heads⟩ := exists_ok_of_any checked
    exact occurs.eq_of_listed (Response.listed_of_read read) heads
  have checked : (Response.decode registry text).toOption.any (·.entries.length = 1) := by decide +kernel
  obtain ⟨response,decoded,_⟩ := exists_ok_of_any checked
  obtain ⟨calls,listed,related⟩ := mirrored registry response decoded
  refine ⟨requests _ _ fun method occurs => ?_,responses _ _ fun method occurs unreserved => ?_,
    ⟨calls,response,decoded,listed,related⟩,(enabled client more).1 fun method occurs decoder found => ?_,
    (enabled client more).2 fun method occurs unreserved => ?_⟩
  · rw [inRequest method occurs]
    rfl
  · exact absurd (inResponse method occurs) unreserved
  · rw [inRequest method occurs] at found
    contradiction
  · exact absurd (inResponse method occurs) unreserved

end Jmap
