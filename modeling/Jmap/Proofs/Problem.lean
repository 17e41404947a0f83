import Jmap.Problem
import Jmap.Proofs.PropertyBag

/-! Problems on a journey: what was decoded is written, and what was written is decoded
again, except that empty texts and a zero status are left out on the way. -/
namespace Jmap
open Json Outcome

namespace ProblemType

theorem uri_ofUri (uri : String) : (ofUri uri).uri = uri := by
  unfold ofUri
  cases found : all.find? (·.uri == uri) with
  | none => rfl
  | some known => simpa using List.find?_some found

end ProblemType

namespace Problem

def names : List String := ["type","title","detail","instance","status"]

/-- As a problem is when it was taken from a bag: its type known by its uri, its status
of 16 bits, and no named field left in the bag. -/
structure Taken (problem : Problem) : Prop where
  canonical : ProblemType.ofUri problem.type.uri = problem.type
  small : ∀ status, problem.status = some status → status ≤ 65535
  apart : names.foldl SortedMap.erase problem.properties = problem.properties

/-- Without the fields that are not written. -/
def kept (problem : Problem) : Problem :=
  {problem with
    title := problem.title.filter (· ≠ "")
    status := problem.status.filter (· ≠ 0)
    detail := problem.detail.filter (· ≠ "")
    occurrence := problem.occurrence.filter (· ≠ "")}

theorem small_of_status? {bag : PropertyBag} {status : Option Nat} (read : status? bag = .ok status) :
    ∀ n, status = some n → n ≤ 65535 := by
  unfold status? at read
  rintro n rfl
  split at read
  · simp at read
  · simp at read
  · split at read
    · cases read
      omega
    · contradiction
  · contradiction

theorem of_ofBag {bag : PropertyBag} {problem : Problem} (taken : ofBag bag = .ok problem) :
    problem.Taken ∧ problem.properties = names.foldl SortedMap.erase bag := by
  obtain ⟨type,_,taken⟩ := bind_eq_ok_iff.mp taken
  obtain ⟨title,_,taken⟩ := bind_eq_ok_iff.mp taken
  obtain ⟨detail,_,taken⟩ := bind_eq_ok_iff.mp taken
  obtain ⟨occurrence,_,taken⟩ := bind_eq_ok_iff.mp taken
  obtain ⟨status,read,⟨⟩⟩ := bind_eq_ok_iff.mp taken
  refine ⟨⟨?_,small_of_status? read,SortedMap.foldl_erase_idem bag names⟩,rfl⟩
  exact congrArg _ (ProblemType.uri_ofUri type)

/-- The bag with the fields that are texts. -/
def texts (problem : Problem) : PropertyBag :=
  (((problem.properties.withText "type" ((some problem.type.uri).getD "")).withText "title" (problem.title.getD "")).withText
    "detail" (problem.detail.getD "")).withText "instance" (problem.occurrence.getD "")

theorem toBag_eq (problem : Problem) : problem.toBag =
    if problem.status.getD 0 = 0 then problem.texts
    else problem.texts.insert "status" (.number (.integer (problem.status.getD 0))) := rfl

theorem find?_toBag (problem : Problem) {key : String} (other : key ≠ "status") :
    problem.toBag.find? key = problem.texts.find? key := by
  rw [toBag_eq]
  split
  · rfl
  · rw [SortedMap.find?_insert,if_neg other]

theorem find?_status (problem : Problem) : problem.toBag.find? "status" =
    ((problem.status.filter (· ≠ 0)).map fun n => .number (.integer n)).or (problem.texts.find? "status") := by
  rw [toBag_eq]
  cases problem.status with
  | none => simp
  | some status => by_cases zero : status = 0 <;> simp [zero,Option.filter_some,SortedMap.find?_insert]

theorem erase_toBag (problem : Problem) :
    names.foldl SortedMap.erase problem.toBag = names.foldl SortedMap.erase problem.properties := by
  have texts : names.foldl SortedMap.erase problem.texts = names.foldl SortedMap.erase problem.properties := by
    unfold texts
    iterate 4 rw [PropertyBag.foldl_erase_withText (by decide)]
  rw [toBag_eq]
  split
  · exact texts
  · rw [SortedMap.foldl_erase_insert (by decide),texts]

theorem Taken.find?_texts {problem : Problem} (taken : problem.Taken) :
    problem.texts.find? "type" = ((some problem.type.uri).filter (· ≠ "")).map .string ∧
    problem.texts.find? "title" = (problem.title.filter (· ≠ "")).map .string ∧
    problem.texts.find? "detail" = (problem.detail.filter (· ≠ "")).map .string ∧
    problem.texts.find? "instance" = (problem.occurrence.filter (· ≠ "")).map .string ∧
    problem.texts.find? "status" = none := by
  have absent {key : String} (named : key ∈ names) : problem.properties.find? key = none := by
    rw [← taken.apart,SortedMap.find?_foldl_erase,if_pos named]
  simp only [names,List.forall_mem_cons] at absent
  unfold texts
  simp only [PropertyBag.find?_withText,String.reduceEq]
  simp [absent]

theorem Taken.status?_toBag {problem : Problem} (taken : problem.Taken) :
    status? problem.toBag = .ok (problem.status.filter (· ≠ 0)) := by
  have found := find?_status problem
  rw [taken.find?_texts.2.2.2.2,Option.or_none] at found
  unfold status?
  rw [found]
  cases given : problem.status with
  | none => rfl
  | some status =>
    have bound := taken.small status given
    by_cases zero : status = 0
    · subst zero
      rfl
    · have unchanged : (some status).filter (· ≠ 0) = some status := by simp [Option.filter_some,zero]
      rw [unchanged]
      change (if 0 ≤ (status : Int) ∧ (status : Int) ≤ 65535 then Except.ok (some (status : Int).toNat) else _) = _
      rw [if_pos ⟨by omega,by omega⟩,Int.toNat_natCast]

theorem Taken.ofBag_toBag {problem : Problem} (taken : problem.Taken) : ofBag problem.toBag =
    if problem.type.uri = "" then .error (.violation .missingErrorType) else .ok problem.kept := by
  obtain ⟨type,title,detail,occurrence,_⟩ := taken.find?_texts
  rw [← find?_toBag problem (by decide)] at type title detail occurrence
  have typed := PropertyBag.text?_of_find? type
  rw [ofBag,PropertyBag.type,typed,ok_bind]
  by_cases empty : problem.type.uri = ""
  · rw [if_pos empty,empty]
    rfl
  · have present : (some problem.type.uri).filter (· ≠ "") = some problem.type.uri := by simp [Option.filter_some,empty]
    rw [if_neg empty,present]
    simp only [PropertyBag.text?_of_find? title,PropertyBag.text?_of_find? detail,PropertyBag.text?_of_find? occurrence,
      taken.status?_toBag,pure_ok,mapError_ok,ok_bind]
    change Except.ok (Problem.mk (.ofUri problem.type.uri) _ _ _ _ (names.foldl SortedMap.erase problem.toBag)) = _
    rw [taken.canonical,erase_toBag,taken.apart]
    rfl

theorem readsBack_toBag {problem : Problem} (small : ∀ status, problem.status = some status → status ≤ 65535)
    (reads : problem.properties.ReadsBack) : problem.toBag.ReadsBack := by
  have texts : problem.texts.ReadsBack :=
    (((reads.withText "type" _).withText "title" _).withText "detail" _).withText "instance" _
  rw [toBag_eq]
  split
  · exact texts
  · have bound : problem.status.getD 0 ≤ 65535 := by
      cases given : problem.status with
      | none => exact Nat.zero_le _
      | some status => exact small status given
    have largest : 65535 ≤ wordMax := by decide
    have fits : FitsWord (problem.status.getD 0) := ⟨by omega,by omega⟩
    exact (texts.erase "status").insert (Value.Settled.integer fits).read_toNode

end Problem
end Jmap
