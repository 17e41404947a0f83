import Jmap.Proofs.Problem

/-! Named fields over a bag: what the object that is written for a problem has under each
name, and what of it is decoded as a field, or as an entry of the bag again. Entries of
the bag under the five names come out where the fields of those names are not written. -/
namespace Jmap
open Json Outcome

namespace Problem
open PropertyBag (IsText)

/-- A status of 16 bits that can be left out. -/
inductive IsStatus : Option Value → Option Nat → Prop where
  | absent : IsStatus none none
  | null : IsStatus (some .null) none
  | word {n : Nat} (small : n ≤ 65535) : IsStatus (some (.number (.integer n))) (some n)

theorem status?_eq_ok_iff {bag : PropertyBag} {status : Option Nat} :
    status? bag = .ok status ↔ IsStatus (bag.find? "status") status := by
  unfold status?
  constructor
  · intro read
    split at read
    next absent =>
      cases read
      rw [absent]
      exact .absent
    next null =>
      cases read
      rw [null]
      exact .null
    next n found =>
      split at read
      next small =>
        cases read
        have natural : ((n.toNat : Nat) : Int) = n := Int.toNat_of_nonneg small.1
        rw [found,← natural]
        exact .word (by omega)
      next => contradiction
    next => contradiction
  · intro stands
    generalize bag.find? "status" = found at stands
    cases stands with
    | absent => rfl
    | null => rfl
    | word small =>
      dsimp only
      rw [if_pos ⟨by omega,by omega⟩,Int.toNat_natCast]

/-- What the fields put under their names: an empty text or a zero status nothing. -/
def fields (problem : Problem) : List (String × Option Value) :=
  [("type",((some problem.type.uri).filter (· ≠ "")).map .string),
   ("title",(problem.title.filter (· ≠ "")).map .string),
   ("detail",(problem.detail.filter (· ≠ "")).map .string),
   ("instance",(problem.occurrence.filter (· ≠ "")).map .string),
   ("status",(problem.status.filter (· ≠ 0)).map fun n : Nat => .number (.integer n))]

/-- A field comes before an entry of the bag. -/
def chosen (problem : Problem) (key : String) : Option Value :=
  (problem.fields.lookup key).join.or (problem.properties.find? key)

theorem chosen_of_unnamed (problem : Problem) {key : String} (unnamed : key ∉ names) :
    problem.chosen key = problem.properties.find? key := by
  have none : problem.fields.lookup key = none := SortedMap.lookup_eq_none_of_fresh (by simpa [fields,names] using unnamed)
  rw [chosen,none,Option.join_none,Option.none_or]

theorem find?_toBag_eq_chosen (problem : Problem) (key : String) : problem.toBag.find? key = problem.chosen key := by
  by_cases status : key = "status"
  · subst status
    have own : problem.fields.lookup "status" =
        some ((problem.status.filter (· ≠ 0)).map fun n : Nat => .number (.integer n)) := by
      simp [fields,SortedMap.lookup_entry]
    rw [find?_status,texts,chosen,own,Option.join_some]
    simp only [PropertyBag.find?_withText,String.reduceEq,if_false]
  · rw [find?_toBag problem status,texts]
    simp only [PropertyBag.find?_withText,chosen,fields,SortedMap.lookup_entry,List.lookup_nil,if_neg status]
    split_ifs with instance' detail title type <;> simp_all

/-- What is decoded of an object: the five names as fields, all others as the bag. -/
structure DecodesFrom (problem : Problem) (object : String → Option Value) : Prop where
  type : ∃ uri, object "type" = some (.string uri) ∧ problem.type = .ofUri uri
  title : IsText (object "title") problem.title
  detail : IsText (object "detail") problem.detail
  occurrence : IsText (object "instance") problem.occurrence
  status : IsStatus (object "status") problem.status
  properties : ∀ key, problem.properties.find? key = if key ∈ names then none else object key

theorem ofBag_eq_ok_iff {bag : PropertyBag} {problem : Problem} :
    ofBag bag = .ok problem ↔ problem.DecodesFrom bag.find? := by
  simp only [ofBag,bind_eq_ok_iff,mapError_eq_ok_iff,PropertyBag.type_eq_ok_iff,PropertyBag.text?_eq_ok_iff,
    status?_eq_ok_iff]
  constructor
  · rintro ⟨uri,type,title,hasTitle,detail,hasDetail,occurrence,hasOccurrence,status,hasStatus,⟨⟩⟩
    exact ⟨⟨uri,type,rfl⟩,hasTitle,hasDetail,hasOccurrence,hasStatus,SortedMap.find?_foldl_erase names bag⟩
  · rintro ⟨⟨uri,type,known⟩,title,detail,occurrence,status,properties⟩
    obtain ⟨_,_,_,_,_,rest⟩ := problem
    have same : names.foldl SortedMap.erase bag = rest :=
      SortedMap.ext_find? fun key => (SortedMap.find?_foldl_erase names bag key).trans (properties key).symm
    subst known same
    exact ⟨uri,type,_,title,_,detail,_,occurrence,_,status,rfl⟩

/-- An object is decoded if each of the five names has what its field takes. -/
theorem exists_decodesFrom_iff {object : PropertyBag} : (∃ problem, DecodesFrom problem object.find?) ↔
    (∃ uri, object.find? "type" = some (.string uri)) ∧
      (∀ key ∈ ["title","detail","instance"], ∃ text, IsText (object.find? key) text) ∧
      ∃ status, IsStatus (object.find? "status") status := by
  simp only [List.forall_mem_cons]
  constructor
  · rintro ⟨problem,⟨uri,type,_⟩,title,detail,occurrence,status,_⟩
    exact ⟨⟨uri,type⟩,⟨⟨_,title⟩,⟨_,detail⟩,⟨_,occurrence⟩,by simp⟩,⟨_,status⟩⟩
  · rintro ⟨⟨uri,type⟩,⟨⟨title,hasTitle⟩,⟨detail,hasDetail⟩,⟨occurrence,hasOccurrence⟩,_⟩,⟨status,hasStatus⟩⟩
    exact ⟨⟨.ofUri uri,title,status,detail,occurrence,names.foldl SortedMap.erase object⟩,
      ⟨uri,type,rfl⟩,hasTitle,hasDetail,hasOccurrence,hasStatus,SortedMap.find?_foldl_erase names object⟩

/-- The object of a problem has under each of the five names the field, if that is written, or
else the bag's entry, and under all others the bag's entries. What of this is decoded
depends on what stands under the names only. A problem is read from a text by reading the
object and giving it to `ofBag`, so all of this is about the object. Only the last part is about
the printed text, and only there `ReadsBack` is assumed of the reader: that it gives back
the values of the bag as they were printed. -/
theorem fields_over_bag (problem : Problem) : ∃ bag raw, encode problem = .ok raw ∧ raw = .ofValue (.ofMap bag) ∧
    (∀ key, bag.find? key = problem.chosen key) ∧ (∀ key ∉ names, bag.find? key = problem.properties.find? key) ∧
    (∀ decoded, ofBag bag = .ok decoded ↔ decoded.DecodesFrom problem.chosen) ∧
    ((∃ decoded, ofBag bag = .ok decoded) ↔ (∃ uri, problem.chosen "type" = some (.string uri)) ∧
      (∀ key ∈ ["title","detail","instance"], ∃ text, IsText (problem.chosen key) text) ∧
      ∃ status, IsStatus (problem.chosen "status") status) ∧
    (∀ decoded, ofBag bag = .ok decoded → decoded.properties = names.foldl SortedMap.erase problem.properties) ∧
    ((∀ status, problem.status = some status → status ≤ 65535) → problem.properties.ReadsBack →
      reader.ofText raw.text = ofBag bag) := by
  have found : problem.toBag.find? = problem.chosen := funext problem.find?_toBag_eq_chosen
  refine ⟨problem.toBag,_,rfl,rfl,problem.find?_toBag_eq_chosen,?_,?_,?_,?_,?_⟩
  · exact fun key unnamed => (problem.find?_toBag_eq_chosen key).trans (problem.chosen_of_unnamed unnamed)
  · intro decoded
    rw [ofBag_eq_ok_iff,found]
  · simp only [ofBag_eq_ok_iff,← found]
    exact exists_decodesFrom_iff
  · intro decoded taken
    rw [(of_ofBag taken).2,erase_toBag]
  · intro small reads
    have back : PropertyBag.reader.ofRaw problem.toBag.toRaw = .ok problem.toBag := readsBack_toBag small reads
    have read : reader.ofRaw problem.toBag.toRaw = ofBag problem.toBag := congrArg (· >>= ofBag) back
    exact (Reader.ofText_text _ _).trans read

/-- An empty type, a zero status and an absent detail leave the names to the bag. -/
theorem fields_over_bag_collisions :
    let properties : PropertyBag := SortedMap.ofList [("type",.string "urn:ietf:params:jmap:error:limit"),
      ("title",.boolean true),("detail",.null),("status",.number (.integer 404)),("limit",.string "maxSizeRequest")]
    let problem : Problem := ⟨.other "",some "t",some 0,none,some "",properties⟩
    ∃ raw decoded, encode problem = .ok raw ∧ reader.ofText raw.text = .ok decoded ∧ decoded.type = .limit ∧
      decoded.title = some "t" ∧ decoded.status = some 404 ∧ decoded.detail = none ∧ decoded.occurrence = none ∧
      decoded.properties = SortedMap.ofList [("limit",.string "maxSizeRequest")] := by
  intro properties problem
  have small : ∀ status, problem.status = some status → status ≤ 65535 := by
    rintro _ ⟨⟩
    decide
  have reads : problem.properties.ReadsBack := rfl
  obtain ⟨bag,raw,encoded,_,_,_,decodes,_,_,rereads⟩ := fields_over_bag problem
  let decoded : Problem := ⟨.limit,some "t",some 404,none,none,SortedMap.ofList [("limit",.string "maxSizeRequest")]⟩
  have rest : names.foldl SortedMap.erase properties = decoded.properties := rfl
  have others : ∀ key, decoded.properties.find? key = if key ∈ names then none else problem.chosen key := by
    intro key
    rw [← rest,SortedMap.find?_foldl_erase]
    split
    next => rfl
    next unnamed => exact (problem.chosen_of_unnamed unnamed).symm
  have took := (decodes decoded).mpr ⟨⟨_,rfl,rfl⟩,.text "t",.null,.absent,.word (by decide),others⟩
  exact ⟨raw,decoded,encoded,(rereads small reads).trans took,rfl,rfl,rfl,rfl,rfl,rfl⟩

end Problem
end Jmap
