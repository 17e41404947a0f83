import Mathlib.Data.List.Forall2

/-! Computations that can fail: when a chain of steps and a walk over a list
succeed, and the error with which they stop. -/
namespace Jmap.Outcome
variable {A B E F : Type}

@[simp] theorem ok_bind (value : A) (next : A → Except E B) : (Except.ok value >>= next) = next value := rfl

@[simp] theorem error_bind (error : E) (next : A → Except E B) :
    (Except.error error >>= next) = .error error := rfl

@[simp] theorem bind_ok (outcome : Except E A) : (outcome >>= Except.ok) = outcome := by
  cases outcome <;> rfl

@[simp] theorem map_ok (f : A → B) (value : A) : f <$> (Except.ok value : Except E A) = .ok (f value) := rfl

@[simp] theorem map_error (f : A → B) (error : E) : f <$> (Except.error error : Except E A) = .error error := rfl

@[simp] theorem pure_ok (value : A) : (pure value : Except E A) = .ok value := rfl

@[simp] theorem mapError_ok (f : E → F) (value : A) : (Except.ok value : Except E A).mapError f = .ok value := rfl

@[simp] theorem mapError_error (f : E → F) (error : E) :
    (Except.error error : Except E A).mapError f = .error (f error) := rfl

theorem bind_eq_ok_iff {first : Except E A} {next : A → Except E B} {result : B} :
    first >>= next = .ok result ↔ ∃ value, first = .ok value ∧ next value = .ok result := by
  cases first <;> simp

theorem bind_eq_error_iff {first : Except E A} {next : A → Except E B} {error : E} :
    first >>= next = .error error ↔
      first = .error error ∨ ∃ value, first = .ok value ∧ next value = .error error := by
  cases first <;> simp

theorem map_eq_ok_iff {f : A → B} {outcome : Except E A} {result : B} :
    f <$> outcome = .ok result ↔ ∃ value, outcome = .ok value ∧ f value = result := by
  cases outcome <;> simp

theorem map_eq_error_iff {f : A → B} {outcome : Except E A} {error : E} :
    f <$> outcome = .error error ↔ outcome = .error error := by
  cases outcome <;> simp

theorem mapError_eq_ok_iff {f : E → F} {outcome : Except E A} {value : A} :
    outcome.mapError f = .ok value ↔ outcome = .ok value := by
  cases outcome <;> simp

theorem mapError_eq_error_iff {f : E → F} {outcome : Except E A} {error : F} :
    outcome.mapError f = .error error ↔ ∃ cause, outcome = .error cause ∧ f cause = error := by
  cases outcome <;> simp

theorem toOption_eq_some_iff {outcome : Except E A} {value : A} :
    outcome.toOption = some value ↔ outcome = .ok value := by
  cases outcome <;> simp [Except.toOption]

theorem exists_ok_of_any {outcome : Except E A} {holds : A → Bool} (checked : outcome.toOption.any holds) :
    ∃ value, outcome = .ok value ∧ holds value := by
  cases outcome with
  | error => contradiction
  | ok value => exact ⟨value,rfl,checked⟩

theorem none_rel_iff {R : A → B → Prop} {other : Option B} : Option.Rel R none other ↔ other = none := by
  cases other <;> simp

theorem some_rel_iff {R : A → B → Prop} {value : A} {other : Option B} :
    Option.Rel R (some value) other ↔ ∃ partner, other = some partner ∧ R value partner := by
  cases other <;> simp

theorem rel_some_iff {R : A → B → Prop} {partner : B} {other : Option A} :
    Option.Rel R other (some partner) ↔ ∃ value, other = some value ∧ R value partner := by
  cases other <;> simp

theorem mapM_eq_ok_iff {f : A → Except E B} {items : List A} {results : List B} :
    items.mapM f = .ok results ↔ List.Forall₂ (fun item result => f item = .ok result) items results := by
  induction items generalizing results with
  | nil => cases results <;> simp
  | cons item items ih =>
    rw [List.mapM_cons]
    constructor
    · intro walked
      obtain ⟨result,first,rest⟩ := bind_eq_ok_iff.mp walked
      obtain ⟨others,following,same⟩ := bind_eq_ok_iff.mp rest
      cases same
      exact .cons first (ih.mp following)
    · intro related
      cases related with
      | cons first rest => rw [first,ok_bind,ih.mpr rest]; rfl

theorem mapM_congr {f g : A → Except E B} {items : List A} (same : ∀ item ∈ items, f item = g item) :
    items.mapM f = items.mapM g := by
  induction items with
  | nil => rfl
  | cons item items ih =>
    rw [List.mapM_cons,List.mapM_cons,same item (by simp),ih fun other member => same other (by simp [member])]

theorem forall₂_comp {C : Type} {R : A → B → Prop} {S : B → C → Prop} {T : A → C → Prop}
    (compose : ∀ item middle result, R item middle → S middle result → T item result)
    {items : List A} {middles : List B} {results : List C} (left : List.Forall₂ R items middles)
    (right : List.Forall₂ S middles results) : List.Forall₂ T items results := by
  induction left generalizing results with
  | nil =>
    cases right
    exact .nil
  | cons first _ ih =>
    cases right with
    | cons second rest => exact .cons (compose _ _ _ first second) (ih rest)

theorem exists_left_of_mem {R : A → B → Prop} {items : List A} {results : List B} (related : List.Forall₂ R items results)
    {result : B} (member : result ∈ results) : ∃ item ∈ items, R item result := by
  induction related with
  | nil => simp at member
  | @cons item first items rest head tail ih =>
    rcases List.mem_cons.mp member with rfl | inside
    · exact ⟨item,by simp,head⟩
    · obtain ⟨other,found,paired⟩ := ih inside
      exact ⟨other,by simp [found],paired⟩

theorem exists_mapM {f : A → Except E B} {items : List A} (each : ∀ item ∈ items, ∃ result, f item = .ok result) :
    ∃ results, items.mapM f = .ok results := by
  simp only [mapM_eq_ok_iff]
  induction items with
  | nil => exact ⟨[],.nil⟩
  | cons item items ih =>
    obtain ⟨result,first⟩ := each item (by simp)
    obtain ⟨results,rest⟩ := ih fun other member => each other (by simp [member])
    exact ⟨result :: results,.cons first rest⟩

theorem exists_of_mapM {f : A → Except E B} {items : List A} {results : List B} (walked : items.mapM f = .ok results)
    {item : A} (member : item ∈ items) : ∃ result, f item = .ok result := by
  obtain ⟨result,_,gave⟩ := exists_left_of_mem (mapM_eq_ok_iff.mp walked).flip member
  exact ⟨result,gave⟩

/-- A walk stops at the first item that fails. -/
theorem mapM_eq_error_iff {f : A → Except E B} {items : List A} {error : E} :
    items.mapM f = .error error ↔ ∃ before item after, items = before ++ item :: after ∧
      (∀ earlier ∈ before, ∃ result, f earlier = .ok result) ∧ f item = .error error := by
  induction items with
  | nil => simp
  | cons item items ih =>
    rw [List.mapM_cons,bind_eq_error_iff]
    constructor
    · rintro (failed | ⟨result,first,rest⟩)
      · exact ⟨[],item,items,rfl,by simp,failed⟩
      · rcases bind_eq_error_iff.mp rest with failed | ⟨_,_,impossible⟩
        · obtain ⟨before,culprit,after,split,good,bad⟩ := ih.mp failed
          refine ⟨item :: before,culprit,after,by simp [split],?_,bad⟩
          intro earlier member
          rcases List.mem_cons.mp member with rfl | inside
          · exact ⟨result,first⟩
          · exact good earlier inside
        · simp at impossible
    · rintro ⟨before,culprit,after,split,good,bad⟩
      cases before with
      | nil =>
        obtain ⟨rfl,rfl⟩ := List.cons.inj split
        exact .inl bad
      | cons first before =>
        obtain ⟨rfl,rfl⟩ := List.cons.inj split
        obtain ⟨result,fine⟩ := good item (by simp)
        have failed := ih.mpr ⟨before,culprit,after,rfl,fun earlier member => good earlier (by simp [member]),bad⟩
        exact .inr ⟨result,fine,bind_eq_error_iff.mpr (.inl failed)⟩

section
variable {f : A → Except E B} {items : List A} {Gives : A → B → Prop} {Fails : A → E → Prop}

theorem mapM_eq_ok_iff_of (gives : ∀ {item result}, f item = .ok result ↔ Gives item result) {results : List B} :
    items.mapM f = .ok results ↔ List.Forall₂ Gives items results := by
  have same : (fun item result => f item = .ok result) = Gives := by
    funext item result
    exact propext gives
  rw [mapM_eq_ok_iff,same]

theorem mapM_eq_error_iff_of (gives : ∀ {item result}, f item = .ok result ↔ Gives item result)
    (fails : ∀ {item error}, f item = .error error ↔ Fails item error) {error : E} :
    items.mapM f = .error error ↔ ∃ before item after, items = before ++ item :: after ∧
      (∀ earlier ∈ before, ∃ result, Gives earlier result) ∧ Fails item error := by
  simp only [mapM_eq_error_iff,gives,fails]

end

end Jmap.Outcome
