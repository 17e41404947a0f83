import Jmap.Error
import Jmap.Proofs.Json.Values

/-! Property bags that are read as they were printed, and the errors that are kept in
such bags: the code is merged into the bag and taken from it again. -/
namespace Jmap
open Json Outcome

namespace PropertyBag

/-- The reader gives back what was printed. -/
def ReadsBack (bag : PropertyBag) : Prop := reader.ofRaw bag.toRaw = .ok bag

theorem readsBack_iff {bag : PropertyBag} :
    bag.ReadsBack ↔ ∀ entry ∈ bag.entries, Reader.value 126 entry.2.toNode = .ok entry.2 :=
  Reader.sortedMap_toNode_iff

/-- Of the entry that is replaced nothing is asked. -/
theorem ReadsBack.insert {bag : PropertyBag} {key : String} {value : Value} (others : ReadsBack (bag.erase key))
    (read : Reader.value 126 value.toNode = .ok value) : ReadsBack (SortedMap.insert bag key value) := by
  rw [readsBack_iff] at others ⊢
  intro entry member
  by_cases own : entry.1 = key
  · have same := SortedMap.eq_of_mem_insert (own ▸ member)
    rw [same]
    exact read
  · have kept : entry ∈ ((bag.insert key value).erase key).entries := by
      simp [SortedMap.erase,member,own]
    rw [SortedMap.erase_insert] at kept
    exact others entry kept

theorem ReadsBack.insert_text {bag : PropertyBag} {key : String} (others : ReadsBack (bag.erase key))
    (text : String) : ReadsBack (bag.insert key (.string text)) :=
  others.insert Value.Settled.string.read_toNode

theorem ReadsBack.erase {bag : PropertyBag} (reads : bag.ReadsBack) (key : String) :
    ReadsBack (SortedMap.erase bag key) := by
  rw [readsBack_iff] at reads ⊢
  exact fun entry member => reads entry (List.mem_of_mem_filter member)

theorem ReadsBack.withText {bag : PropertyBag} (reads : bag.ReadsBack) (key text : String) :
    ReadsBack (bag.withText key text) := by
  unfold PropertyBag.withText
  split
  · exact reads
  · exact (reads.erase key).insert_text text

/-- An entry of the bag stays where the text that would replace it is empty. -/
theorem find?_withText (bag : PropertyBag) (key other : String) (text : Option String) :
    (bag.withText key (text.getD "")).find? other =
      if other = key then ((text.filter (· ≠ "")).map .string).or (bag.find? key) else bag.find? other := by
  unfold withText
  cases text with
  | none => by_cases own : other = key <;> simp [own]
  | some text =>
    by_cases empty : text = ""
    · by_cases own : other = key <;> simp [own,empty,Option.filter_some]
    · by_cases own : other = key <;> simp [own,empty,Option.filter_some,SortedMap.find?_insert]

theorem foldl_erase_withText {names : List String} {key : String} (member : key ∈ names) (bag : PropertyBag) (text : String) :
    names.foldl SortedMap.erase (bag.withText key text) = names.foldl SortedMap.erase bag := by
  unfold withText
  split
  · rfl
  · exact SortedMap.foldl_erase_insert member bag _

theorem text?_of_find? {bag : PropertyBag} {key : String} {text : Option String}
    (found : bag.find? key = text.map .string) : bag.text? key = .ok text := by
  unfold text?
  rw [found]
  cases text <;> rfl

/-- A text that can be left out. Null stands for none. -/
inductive IsText : Option Value → Option String → Prop where
  | absent : IsText none none
  | null : IsText (some .null) none
  | text (content : String) : IsText (some (.string content)) (some content)

theorem text?_eq_ok_iff {bag : PropertyBag} {key : String} {text : Option String} :
    bag.text? key = .ok text ↔ IsText (bag.find? key) text := by
  unfold text?
  constructor
  · intro read
    split at read
    next absent =>
      cases read
      rw [absent]
      exact .absent
    next null =>
      cases read
      rw [null]
      exact .null
    next content found =>
      cases read
      rw [found]
      exact .text content
    next => contradiction
  · intro stands
    generalize bag.find? key = found at stands
    cases stands <;> rfl

theorem type_eq_ok_iff {bag : PropertyBag} {type : String} :
    bag.type = .ok type ↔ bag.find? "type" = some (.string type) := by
  rw [PropertyBag.type,bind_eq_ok_iff]
  simp only [text?_eq_ok_iff]
  constructor
  · rintro ⟨text,stands,given⟩
    cases text with
    | none => contradiction
    | some content =>
      cases given
      generalize bag.find? "type" = found at stands
      cases stands
      rfl
  · intro found
    rw [found]
    exact ⟨some type,.text type,rfl⟩

theorem type_of_absent {bag : PropertyBag} (absent : bag.find? "type" = none ∨ bag.find? "type" = some .null) :
    bag.type = .error .missingType := by
  have none : bag.text? "type" = .ok none := by
    rw [text?_eq_ok_iff]
    rcases absent with absent | null
    · rw [absent]
      exact .absent
    · rw [null]
      exact .null
  rw [type,none]
  rfl

theorem type_of_other {bag : PropertyBag} {value : Value} (found : bag.find? "type" = some value)
    (notNull : value ≠ .null) (noText : ∀ type, value ≠ .string type) : bag.type = .error (.notText "type" value) := by
  have refused : bag.text? "type" = .error (.notText "type" value) := by
    unfold text?
    rw [found]
    cases value with
    | null => contradiction
    | string type => exact absurd rfl (noText type)
    | _ => rfl
  rw [type,refused]
  rfl

end PropertyBag

namespace ErrorCode

/-- A code outside the table that is spelled as none of those in it. -/
def IsCanonical (code : ErrorCode) : Prop := ∀ text, code = .other text → ∀ known ∈ all, known.text ≠ text

theorem ofText_known : ∀ code ∈ all, ofText code.text = code := by decide

theorem known_or_other (code : ErrorCode) : code ∈ all ∨ ∃ text, code = .other text := by
  cases code with
  | other text => exact .inr ⟨text,rfl⟩
  | _ => exact .inl (by decide)

/-- Every spelling is kept, whether the table knows it or not. -/
theorem text_ofText (spelling : String) : (ofText spelling).text = spelling := by
  unfold ofText
  cases found : all.find? (·.text == spelling) with
  | none => rfl
  | some known => simpa using List.find?_some found

theorem ofText_text {code : ErrorCode} (canonical : code.IsCanonical) : ofText code.text = code := by
  rcases known_or_other code with known | ⟨text,rfl⟩
  · exact ofText_known code known
  · have missing : all.find? (·.text == text) = none := by simpa using canonical text rfl
    change (all.find? (·.text == text)).getD (.other text) = .other text
    rw [missing]
    rfl

end ErrorCode

namespace MethodError

/-- As it is after a journey: the code spelled as the table has it, and no member
of the bag beside it that has the code's name. -/
def normalised (error : MethodError) : MethodError :=
  ⟨error.callId,.ofText error.code.text,error.properties.erase "type"⟩

theorem normalised_eq {error : MethodError} (untyped : error.properties.find? "type" = none)
    (canonical : error.code.IsCanonical) : error.normalised = error := by
  rw [normalised,ErrorCode.ofText_text canonical,SortedMap.erase_of_find?_eq_none untyped]

theorem ofBag_toBag (error : MethodError) : ofBag error.callId error.toBag = .ok error.normalised := by
  have typed : PropertyBag.type error.toBag = .ok error.code.text := by
    simp [PropertyBag.type,PropertyBag.text?,toBag,SortedMap.find?_insert]
  rw [ofBag,typed,ok_bind,toBag,SortedMap.erase_insert]
  rfl

theorem ofArguments_toRaw {error : MethodError} (others : PropertyBag.ReadsBack (error.properties.erase "type")) :
    ofArguments error.callId error.toRaw = .ok error.normalised := by
  have read : PropertyBag.reader.ofRaw error.toRaw = .ok error.toBag :=
    PropertyBag.ReadsBack.insert_text others error.code.text
  rw [ofArguments,read,mapError_ok,ok_bind,ofBag_toBag,mapError_ok]

end MethodError
end Jmap
