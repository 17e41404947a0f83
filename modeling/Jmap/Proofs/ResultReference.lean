import Jmap.Proofs.Pointer.Walk
import Jmap.ResultReference

/-! What a reference finds in a list of results that grows while a batch is processed. The
first result that matches is the only one in which the path is walked, so that what
does not match is as good as absent, and what comes later is never looked at. -/
namespace Jmap
open Json Outcome

namespace ResultReference
variable {A : Type} {reference : ResultReference} {first second : List (MethodResponse A)}

/-- A success that has both the call id and the name. -/
def Matches (reference : ResultReference) : MethodResponse A → Prop
  | .success result => result.callId = reference.resultOf ∧ result.name = reference.name
  | .failure _ => False

instance : DecidablePred (reference.Matches (A := A))
  | .success result => inferInstanceAs (Decidable (result.callId = _ ∧ result.name = _))
  | .failure _ => inferInstanceAs (Decidable False)

theorem result?_eq_some_iff {entry : MethodResponse A} {result : Invocation A} :
    reference.result? entry = some result ↔ reference.Matches entry ∧ entry = .success result := by
  cases entry <;> simp [result?,Matches]

theorem result?_eq_none_iff {entry : MethodResponse A} :
    reference.result? entry = none ↔ ¬ reference.Matches entry := by
  cases entry <;> simp [result?,Matches]

theorem findSome?_eq_none_iff :
    first.findSome? reference.result? = none ↔ ∀ entry ∈ first, ¬ reference.Matches entry := by
  simp [List.findSome?_eq_none_iff,result?_eq_none_iff]

theorem findSome?_of_first {result : Invocation A} (unmatched : ∀ entry ∈ first, ¬ reference.Matches entry)
    (matched : reference.Matches (.success result)) (later : List (MethodResponse A)) :
    (first ++ .success result :: later).findSome? reference.result? = some result := by
  have found := result?_eq_some_iff.mpr ⟨matched,rfl⟩
  rw [List.findSome?_append,findSome?_eq_none_iff.mpr unmatched,Option.none_or,List.findSome?_cons,found]

/-- Entries that do not match can be left out. -/
theorem findSome?_filter (responses : List (MethodResponse A)) :
    (responses.filter (reference.Matches ·)).findSome? reference.result? =
      responses.findSome? reference.result? := by
  induction responses with
  | nil => rfl
  | cons entry responses ih =>
    rw [List.filter_cons]
    by_cases matched : reference.Matches entry
    · rw [if_pos (decide_eq_true matched),List.findSome?_cons,List.findSome?_cons,ih]
    · rw [if_neg (mt of_decide_eq_true matched),List.findSome?_cons,result?_eq_none_iff.mpr matched,ih]

variable [ToPointable A]

/-- What a reference comes to, by the result that was found. -/
def outcome (reference : ResultReference) : Option (Invocation A) → Except Error Value
  | none => .error (.unresolvedReference (reference.resultOf ++ "/" ++ reference.name))
  | some result =>
    match (toPointable result.arguments).walk? reference.path.tokens with
    | none => .error (.noPointerValue reference.path.text)
    | some place => place.toValue.mapError .serialization

theorem resolve_eq (responses : List (MethodResponse A)) :
    reference.resolve responses = reference.outcome (responses.findSome? reference.result?) := by
  unfold resolve outcome
  cases responses.findSome? reference.result? with
  | none => rfl
  | some result =>
    simp only [Pointable.resolve]
    cases (toPointable result.arguments).walk? reference.path.tokens <;> rfl

theorem outcome_some_ne (result : Invocation A) (text : String) :
    reference.outcome (some result) ≠ .error (.unresolvedReference text) := by
  rw [outcome]
  split
  · simp
  · simp [mapError_eq_error_iff]

theorem resolve_eq_unresolved_iff {text : String} :
    reference.resolve first = .error (.unresolvedReference text) ↔
      (∀ entry ∈ first, ¬ reference.Matches entry) ∧ text = reference.resultOf ++ "/" ++ reference.name := by
  rw [resolve_eq,← findSome?_eq_none_iff]
  cases first.findSome? reference.result? with
  | none => simp [outcome,eq_comm]
  | some result => simp [outcome_some_ne]

theorem resolve_congr (same : first.filter (reference.Matches ·) = second.filter (reference.Matches ·)) :
    reference.resolve first = reference.resolve second := by
  rw [resolve_eq,resolve_eq,← findSome?_filter first,same,findSome?_filter]

/-- A reference is unresolved exactly if nothing matches; else it stands for what its path leads
to in the first match. It does not change with entries that do not match, wherever they stand, nor
with any that follow a match. -/
theorem resolve_by_first_match (reference : ResultReference) :
    (∀ (responses : List (MethodResponse A)) (text : String),
      reference.resolve responses = .error (.unresolvedReference text) ↔
        (∀ entry ∈ responses, ¬ reference.Matches entry) ∧ text = reference.resultOf ++ "/" ++ reference.name) ∧
    (∀ (before after : List (MethodResponse A)) (result : Invocation A),
      (∀ entry ∈ before, ¬ reference.Matches entry) → reference.Matches (.success result) →
        reference.resolve (before ++ .success result :: after) =
          (match (toPointable result.arguments).walk? reference.path.tokens with
          | none => .error (.noPointerValue reference.path.text)
          | some place => place.toValue.mapError .serialization) ∧
        (reference.path.Reachable → reference.resolve (before ++ .success result :: after) =
          (toPointable result.arguments).get reference.path.text)) ∧
    (∀ first second : List (MethodResponse A),
      first.filter (reference.Matches ·) = second.filter (reference.Matches ·) →
        reference.resolve first = reference.resolve second) ∧
    (∀ before inserted after : List (MethodResponse A), (∀ entry ∈ inserted, ¬ reference.Matches entry) →
      reference.resolve (before ++ inserted ++ after) = reference.resolve (before ++ after)) ∧
    ∀ responses later : List (MethodResponse A), (∃ entry ∈ responses, reference.Matches entry) →
      reference.resolve (responses ++ later) = reference.resolve responses := by
  refine ⟨fun _ _ => resolve_eq_unresolved_iff,?_,fun _ _ => resolve_congr,?_,?_⟩
  · intro before after result unmatched matched
    have walked : reference.resolve (before ++ .success result :: after) = reference.outcome (some result) := by
      rw [resolve_eq,findSome?_of_first unmatched matched]
    refine ⟨walked,fun reachable => ?_⟩
    rw [walked,Pointable.get_of_pointer reachable.ofText?_text]
    rfl
  · intro before inserted after unmatched
    apply resolve_congr
    have nothing : inserted.filter (reference.Matches ·) = [] := by simpa [List.filter_eq_nil_iff] using unmatched
    simp [nothing]
  · rintro responses later ⟨entry,member,matched⟩
    have known : responses.findSome? reference.result? ≠ none :=
      fun absent => findSome?_eq_none_iff.mp absent entry member matched
    obtain ⟨result,found⟩ := Option.ne_none_iff_exists'.mp known
    rw [resolve_eq,resolve_eq,List.findSome?_append,found,Option.some_or]

theorem resolve_by_first_match_without_value :
    let reference : ResultReference := ⟨"c1","Email/query",⟨"/ids/0",["ids","0"]⟩⟩
    let failed : MethodResponse Value := .failure ⟨"c1",.serverFail,.empty⟩
    let renamed : MethodResponse Value := .success ⟨"Email/get","c1",.object [("ids",.array [.null])]⟩
    let empty : Invocation Value := ⟨"Email/query","c1",.object [("ids",.array [])]⟩
    let full : Invocation Value := ⟨"Email/query","c1",.object [("ids",.array [.string "M1"])]⟩
    reference.resolve [failed,renamed] = .error (.unresolvedReference "c1/Email/query") ∧
      reference.resolve [failed,renamed,.success empty,.success full] = .error (.noPointerValue "/ids/0") ∧
      (toPointable empty.arguments).get "/ids/0" = .error (.noPointerValue "/ids/0") ∧
      reference.resolve [.success full,renamed,failed] = reference.resolve [renamed,.success full] ∧
      reference.resolve ([.success full] ++ [failed] ++ [.success empty]) = .ok (.string "M1") := by
  intro reference failed renamed empty full
  obtain ⟨unresolved,found,filtered,inserted,extended⟩ := resolve_by_first_match (A := Value) reference
  have unmatched : ∀ entry ∈ [failed,renamed], ¬ reference.Matches entry := by decide
  have parsed : Pointer.parse "/ids/0" = .ok reference.path := rfl
  obtain ⟨walked,got⟩ := found [failed,renamed] [.success full] empty unmatched (by decide)
  refine ⟨(unresolved _ _).mpr ⟨unmatched,rfl⟩,walked,?_,filtered _ _ rfl,?_⟩
  · exact (got (.parsed parsed)).symm.trans walked
  · have known : ∃ entry ∈ [.success full], reference.Matches entry := ⟨_,List.mem_cons_self,by decide⟩
    rw [inserted _ [failed] _ (by decide),extended _ _ known]
    rfl

end ResultReference
end Jmap
