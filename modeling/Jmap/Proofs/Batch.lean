import Jmap.Batch
import Jmap.Proofs.Json.Decimals
import Jmap.Proofs.Request.RoundTrip
import Mathlib.Data.List.Induction
import Mathlib.Data.List.Nodup

/-! Batches by the steps in which they are built. The ids of their calls count the calls
and so tell them apart. -/
namespace Jmap
open Json Outcome

namespace Batch

inductive Step (A : Type) where
  | use (capability : String)
  | add (name : String) (arguments : A)

variable {A : Type}

def apply (batch : Batch A) : Step A → Batch A
  | .use capability => batch.useCapability capability
  | .add name arguments => (batch.add name arguments).2

def build (steps : List (Step A)) : Batch A := steps.foldl apply empty

def callIds (batch : Batch A) : List String := batch.request.calls.map (·.callId)

theorem build_concat (steps : List (Step A)) (step : Step A) : build (steps ++ [step]) = (build steps).apply step :=
  List.foldl_concat ..

theorem calls_useCapability (batch : Batch A) (capability : String) :
    (batch.useCapability capability).request.calls = batch.request.calls := by
  unfold useCapability Request.useCapability
  split <;> rfl

theorem createdIds_useCapability (batch : Batch A) (capability : String) :
    (batch.useCapability capability).request.createdIds = batch.request.createdIds := by
  unfold useCapability Request.useCapability
  split <;> rfl

theorem callIds_add (batch : Batch A) (name : String) (arguments : A) :
    (batch.add name arguments).2.callIds = batch.callIds ++ [batch.nextCallId] := by
  simp [callIds,add,Request.pushCall]

theorem callIds_build (steps : List (Step A)) :
    (build steps).callIds = (List.range (build steps).size).map toString := by
  induction steps using List.reverseRecOn with
  | nil => rfl
  | append_singleton steps step ih =>
    rw [build_concat]
    cases step with
    | use capability =>
      have calls := calls_useCapability (build steps) capability
      rw [callIds,size,apply,calls]
      exact ih
    | add name arguments =>
      have longer : ((build steps).add name arguments).2.size = (build steps).size + 1 := List.length_append
      rw [apply,callIds_add,ih,longer,List.range_succ,List.map_append]
      rfl

theorem callIds_nodup (steps : List (Step A)) : (build steps).callIds.Nodup := by
  rw [callIds_build]
  exact List.nodup_range.map fun _ _ => toString_inj.mp

theorem createdIds_build (steps : List (Step A)) : (build steps).request.createdIds = none := by
  induction steps using List.reverseRecOn with
  | nil => rfl
  | append_singleton steps step ih =>
    rw [build_concat]
    cases step with
    | use capability => rw [apply,createdIds_useCapability,ih]
    | add name arguments => exact ih

end Batch

namespace Request
variable {A : Type} [Writable A]

theorem exists_encode {request : Request A} (uncreated : request.createdIds = none)
    (objects : ∀ call ∈ request.calls, ∃ raw, Writable.encode call.arguments = .ok raw ∧ raw.isObject) :
    ∃ body, request.encode = .ok body := by
  have written : ∀ call ∈ request.calls, ∃ triplet, call.toTriplet = .ok triplet := by
    intro call member
    obtain ⟨raw,encoded,object⟩ := objects call member
    exact ⟨⟨call.name,raw,call.callId,object⟩,Invocation.toTriplet_eq_ok_iff.mpr ⟨encoded,rfl,rfl⟩⟩
  obtain ⟨triplets,calls⟩ := exists_mapM written
  have created : CreatedIds.written request.createdIds = .ok [] := by rw [uncreated]; rfl
  exact ⟨_,encode_eq_ok_iff.mpr ⟨triplets,[],calls,created,rfl⟩⟩

end Request
end Jmap
