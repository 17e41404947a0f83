import Jmap.Proofs.Batch

/-! What every batch has kept through its steps. Calls only get more, each with the number of
calls before it for its id, and capabilities are listed as they are first declared. -/
namespace Jmap.Batch
variable {A : Type}

def Step.isAdd : Step A → Bool
  | .use _ => false
  | .add _ _ => true

/-- At some point one capability has been declared and the other has not. -/
def DeclaredBefore (steps : List (Step A)) (earlier later : String) : Prop :=
  ∃ before after, steps = before ++ .use earlier :: after ∧ .use later ∉ before

/-- Each declared capability is listed once, in the order of the first declarations. -/
structure ListsDeclared (steps : List (Step A)) (uses : List String) : Prop where
  once : uses.Nodup
  declared : ∀ capability, capability ∈ uses ↔ .use capability ∈ steps
  ordered : uses.Pairwise (DeclaredBefore steps)

theorem DeclaredBefore.concat {steps : List (Step A)} {earlier later : String}
    (declared : DeclaredBefore steps earlier later) (step : Step A) :
    DeclaredBefore (steps ++ [step]) earlier later := by
  obtain ⟨before,after,rfl,fresh⟩ := declared
  exact ⟨before,after ++ [step],by simp,fresh⟩

namespace ListsDeclared
variable {steps : List (Step A)} {uses : List String}

theorem add (listed : ListsDeclared steps uses) (name : String) (arguments : A) :
    ListsDeclared (steps ++ [.add name arguments]) uses where
  once := listed.once
  declared capability := by simp [listed.declared]
  ordered := listed.ordered.imp fun earlier => earlier.concat _

theorem again (listed : ListsDeclared steps uses) {capability : String} (known : capability ∈ uses) :
    ListsDeclared (steps ++ [.use capability]) uses where
  once := listed.once
  declared other := by
    have already := (listed.declared capability).mp known
    rw [listed.declared,List.mem_append,List.mem_singleton,Step.use.injEq]
    constructor
    · exact .inl
    · rintro (member | rfl)
      · exact member
      · exact already
  ordered := listed.ordered.imp fun earlier => earlier.concat _

theorem first (listed : ListsDeclared steps uses) {capability : String} (unknown : capability ∉ uses) :
    ListsDeclared (steps ++ [.use capability]) (uses ++ [capability]) where
  once := by
    rw [← List.concat_eq_append]
    exact listed.once.concat unknown
  declared other := by simp [listed.declared]
  ordered := by
    refine List.pairwise_append.mpr ⟨listed.ordered.imp fun earlier => earlier.concat _,List.pairwise_singleton ..,?_⟩
    intro known member other same
    cases List.mem_singleton.mp same
    obtain ⟨before,after,split⟩ := List.append_of_mem ((listed.declared known).mp member)
    refine ⟨before,after ++ [.use capability],by simp [split],fun inside => ?_⟩
    exact unknown ((listed.declared capability).mpr (by simp [split,inside]))

end ListsDeclared

theorem listsDeclared_apply {steps : List (Step A)} {batch : Batch A} (listed : ListsDeclared steps batch.request.uses)
    (step : Step A) : ListsDeclared (steps ++ [step]) (batch.apply step).request.uses := by
  cases step with
  | add name arguments => exact listed.add name arguments
  | use capability =>
    change ListsDeclared _ (batch.request.useCapability capability).uses
    unfold Request.useCapability
    split
    next known => exact listed.again (List.contains_iff_mem.mp known)
    next unknown => exact listed.first (mt List.contains_iff_mem.mpr unknown)

theorem listsDeclared_build (steps : List (Step A)) : ListsDeclared steps (build steps).request.uses := by
  induction steps using List.reverseRecOn with
  | nil => exact ⟨.nil,by simp [build,empty,Request.new],.nil⟩
  | append_singleton steps step ih =>
    rw [build_concat]
    exact listsDeclared_apply ih step

theorem size_apply (batch : Batch A) (step : Step A) :
    (batch.apply step).size = batch.size + if step.isAdd then 1 else 0 := by
  cases step with
  | use capability => exact congrArg List.length (calls_useCapability batch capability)
  | add name arguments => exact List.length_append

theorem size_build (steps : List (Step A)) : (build steps).size = steps.countP Step.isAdd := by
  induction steps using List.reverseRecOn with
  | nil => rfl
  | append_singleton steps step ih => rw [build_concat,size_apply,ih,List.countP_append,List.countP_singleton]

theorem calls_apply (batch : Batch A) (step : Step A) : batch.request.calls <+: (batch.apply step).request.calls := by
  cases step with
  | use capability =>
    have kept := calls_useCapability batch capability
    exact ⟨[],(List.append_nil _).trans kept.symm⟩
  | add name arguments => exact List.prefix_append ..

theorem calls_build (steps later : List (Step A)) :
    (build steps).request.calls <+: (build (steps ++ later)).request.calls := by
  induction later using List.reverseRecOn with
  | nil => exact ⟨[],by rw [List.append_nil,List.append_nil]⟩
  | append_singleton later step ih =>
    rw [← List.append_assoc,build_concat]
    exact ih.trans (calls_apply _ step)

theorem nextCallId_apply (batch : Batch A) (step : Step A) :
    (batch.apply step).nextCallId = batch.nextCallId ↔ step.isAdd = false := by
  rw [nextCallId,nextCallId,Json.toString_inj,size_apply]
  cases step.isAdd <;> simp

/-- Whatever the steps, the calls are numbered from zero as they were added, each under the id that was
announced and returned for it, and the capabilities are those declared, each once. -/
theorem numbered_calls (steps : List (Step A)) :
    let batch := build steps
    batch.size = steps.countP Step.isAdd ∧
    batch.callIds = (List.range batch.size).map toString ∧ batch.callIds.Nodup ∧
    (∀ name arguments,
      (batch.add name arguments).1 = batch.nextCallId ∧
      (build (steps ++ [.add name arguments])).request.calls =
        batch.request.calls ++ [⟨name,(batch.add name arguments).1,arguments⟩]) ∧
    (∀ later, batch.request.calls <+: (build (steps ++ later)).request.calls) ∧
    (∀ k, 1 ≤ k → k ≤ batch.size → batch.callIds[k - 1]? = some (nthCallId k)) ∧
    (∀ step, (batch.apply step).nextCallId = batch.nextCallId ↔ step.isAdd = false) ∧
    ListsDeclared steps batch.request.uses := by
  intro batch
  refine ⟨size_build steps,callIds_build steps,callIds_nodup steps,fun name arguments => ⟨rfl,?_⟩,calls_build steps,?_,
    nextCallId_apply batch,listsDeclared_build steps⟩
  · rw [build_concat]
    rfl
  · intro k positive within
    have inside : k - 1 < batch.size := by omega
    rw [callIds_build steps,List.getElem?_map,List.getElem?_range inside]
    rfl

theorem numbered_calls_interleaved :
    let steps : List (Step Nat) := [.use "urn:b",.add "Email/query" 7,.use "urn:a",.use "urn:b",.add "Email/get" 8]
    let batch := build steps
    batch.size = 2 ∧ batch.callIds[1]? = some (nthCallId 2) ∧ nthCallId 2 = "1" ∧
      ListsDeclared steps ["urn:b","urn:a"] := by
  intro steps batch
  obtain ⟨size,_,_,_,_,nth,_,listed⟩ := numbered_calls steps
  exact ⟨size,nth 2 (by decide) (by decide),rfl,listed⟩

end Jmap.Batch
