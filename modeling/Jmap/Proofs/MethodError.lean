import Jmap.Proofs.PropertyBag

/-! The two ways to decode a method error, as the arguments of a response and as an object
of its own. They take the same objects for the same errors, from which the object is
written again as it was, and they differ in how they report an object that they refuse. -/
namespace Jmap
open Json Outcome

theorem Json.Reader.ofText_of_raw {A : Type} (reader : Reader A) {text : String} {raw : Raw}
    (parsed : Raw.ofText? text = some raw) : reader.ofText text = reader.ofRaw raw := by
  unfold Raw.ofText? at parsed
  dsimp only at parsed
  split at parsed
  next closed =>
    split at parsed
    next ends =>
      cases parsed
      unfold ofText ofDocument ofRaw
      cases reader maxDepth (Document.ofText text).root with
      | ok value => rw [ok_bind,if_pos ends,pure_ok]
      | error => rfl
    next => contradiction
  next => contradiction

namespace MethodError

/-- An object was read, with a text for its type. -/
def IsErrorObject (value? : Except Defect Value) : Prop :=
  ∃ members type, value? = .ok (.object members) ∧ members.lookup "type" = some (.string type)

/-- How an object is refused as arguments and on its own, by what it has as its type. -/
inductive Refuses : Option Value → Error → Defect → Prop where
  | absent : Refuses none (.invalid .missingErrorType) (.violation .missingErrorType)
  | null : Refuses (some .null) (.invalid .missingErrorType) (.violation .missingErrorType)
  | notText {value : Value} (notNull : value ≠ .null) (noText : ∀ type, value ≠ .string type) :
    Refuses (some value) (.serialization (.notText "type" value)) (.nested (.notText "type" value))

/-- On its own the object is a part of what is read, so the reader tells what the arguments report. -/
theorem Refuses.message_eq {type : Option Value} {error : Error} {defect : Defect} (refuses : Refuses type error defect) :
    defect.message = error.message := by
  cases refuses <;> rfl

section
variable {callId text type : String} {arguments : Raw} {bag : PropertyBag}

theorem ofBag_of_text (typed : bag.find? "type" = some (.string type)) :
    ofBag callId bag = .ok ⟨callId,.ofText type,bag.erase "type"⟩ := by
  rw [ofBag,PropertyBag.type_eq_ok_iff.mpr typed]
  rfl

theorem toBag_of_text (typed : bag.find? "type" = some (.string type)) (other : String) :
    toBag ⟨other,.ofText type,bag.erase "type"⟩ = bag := by
  rw [toBag,ErrorCode.text_ofText]
  exact SortedMap.insert_erase typed

theorem exists_refusal (untyped : ¬∃ type, bag.find? "type" = some (.string type)) :
    ∃ fault, bag.type = .error fault ∧ Refuses (bag.find? "type") (.ofFieldFault fault) fault.toDefect := by
  cases found : bag.find? "type" with
  | none => exact ⟨_,PropertyBag.type_of_absent (.inl found),.absent⟩
  | some value =>
    by_cases null : value = .null
    · subst null
      exact ⟨_,PropertyBag.type_of_absent (.inr found),.null⟩
    · have noText : ∀ type, value ≠ .string type := fun type same => untyped ⟨type,same ▸ found⟩
      exact ⟨_,PropertyBag.type_of_other found null noText,.notText null noText⟩

/-- The object that a value is, if it is one, decoded in both ways or refused in both. -/
inductive Decodings (callId : String) : Except Defect Value → Except Error MethodError → Except Defect MethodError → Prop where
  | decoded {bag : PropertyBag} {type : String} (typed : bag.find? "type" = some (.string type)) :
    Decodings callId (.ok (.ofMap bag)) (.ok ⟨callId,.ofText type,bag.erase "type"⟩) (.ok ⟨"",.ofText type,bag.erase "type"⟩)
  | refused {bag : PropertyBag} {error : Error} {defect : Defect} (refuses : Refuses (bag.find? "type") error defect) :
    Decodings callId (.ok (.ofMap bag)) (.error error) (.error defect)
  | noObject {value? : Except Defect Value} (none : ∀ members, value? ≠ .ok (.object members)) :
    Decodings callId value? (.error (.serialization .malformed)) (.error .malformed)

theorem decodings (callId : String) (parsed : Raw.ofText? text = some arguments) :
    Decodings callId (Reader.value.ofText text) (ofArguments callId arguments) (reader.ofText text) := by
  rw [Reader.ofText_of_raw _ parsed,Reader.ofText_of_raw _ parsed]
  have read : PropertyBag.reader.ofRaw arguments = Reader.value.ofRaw arguments >>= Value.asMap :=
    Reader.sortedMap_eq_value _ _
  have own : reader.ofRaw arguments = PropertyBag.reader.ofRaw arguments >>= fun bag =>
    (ofBag "" bag).mapError FieldFault.toDefect := rfl
  rw [own,ofArguments]
  cases taken : PropertyBag.reader.ofRaw arguments with
  | ok bag =>
    rw [mapError_ok,ok_bind,ok_bind,Reader.ofRaw,Reader.value_of_sortedMap taken]
    by_cases typed : ∃ type, bag.find? "type" = some (.string type)
    · obtain ⟨type,typed⟩ := typed
      rw [ofBag_of_text typed,ofBag_of_text typed]
      exact .decoded typed
    · obtain ⟨fault,failed,refuses⟩ := exists_refusal typed
      rw [ofBag,ofBag,failed]
      exact .refused refuses
  | error defect =>
    rw [taken] at read
    have malformed : defect = .malformed := by
      rcases bind_eq_error_iff.mp read.symm with unread | ⟨value,_,noMap⟩
      · exact Reader.Uniform.value _ _ _ unread
      · exact Value.asMap_eq_error noMap
    subst malformed
    refine .noObject fun members given => ?_
    rw [given] at read
    contradiction

namespace Decodings
variable {value? : Except Defect Value} {inEnvelope : Except Error MethodError} {onItsOwn : Except Defect MethodError}

theorem accepts_iff (decodings : Decodings callId value? inEnvelope onItsOwn) :
    ((∃ error, inEnvelope = .ok error) ↔ IsErrorObject value?) ∧ ((∃ error, onItsOwn = .ok error) ↔ IsErrorObject value?) := by
  cases decodings with
  | @decoded bag type typed =>
    have object : IsErrorObject (.ok (.ofMap bag)) := ⟨bag.entries,type,rfl,typed⟩
    exact ⟨iff_of_true ⟨_,rfl⟩ object,iff_of_true ⟨_,rfl⟩ object⟩
  | @refused bag error defect refuses =>
    have noObject : ¬IsErrorObject (.ok (.ofMap bag)) := by
      rintro ⟨_,type,⟨⟩,typed⟩
      have found : bag.find? "type" = some (.string type) := typed
      rw [found] at refuses
      cases refuses with
      | notText _ noText => exact noText type rfl
    exact ⟨iff_of_false (by simp) noObject,iff_of_false (by simp) noObject⟩
  | noObject none =>
    have noObject : ¬IsErrorObject value? := fun ⟨members,_,read,_⟩ => none members read
    exact ⟨iff_of_false (by simp) noObject,iff_of_false (by simp) noObject⟩

theorem eq_ok_iff (decodings : Decodings callId value? inEnvelope onItsOwn) (error : MethodError) :
    inEnvelope = .ok error ↔ error.callId = callId ∧ onItsOwn = .ok {error with callId := ""} := by
  cases decodings with
  | decoded typed =>
    obtain ⟨own,code,properties⟩ := error
    simp [eq_comm]
  | refused => simp
  | noObject => simp

theorem encode_eq (decodings : Decodings callId value? inEnvelope onItsOwn) {error : MethodError}
    (decoded : inEnvelope = .ok error) : ∃ value, value? = .ok value ∧
      ∀ other, encode {error with callId := other} = .ok (.ofValue value) := by
  cases decodings with
  | decoded typed =>
    cases decoded
    refine ⟨_,rfl,fun other => ?_⟩
    exact congrArg (fun bag : PropertyBag => Except.ok bag.toRaw) (toBag_of_text typed other)
  | refused => contradiction
  | noObject => contradiction

theorem refuses (decodings : Decodings callId value? inEnvelope onItsOwn) {members : List (String × Value)}
    (object : value? = .ok (.object members)) (untyped : ¬IsErrorObject value?) : ∃ error defect,
      inEnvelope = .error error ∧ onItsOwn = .error defect ∧ Refuses (members.lookup "type") error defect := by
  cases decodings with
  | @decoded bag type typed => exact absurd ⟨bag.entries,type,rfl,typed⟩ untyped
  | refused refuses =>
    cases object
    exact ⟨_,_,rfl,rfl,refuses⟩
  | noObject none => exact absurd object (none members)

theorem noObject_eq (decodings : Decodings callId value? inEnvelope onItsOwn)
    (none : ∀ members, value? ≠ .ok (.object members)) :
    inEnvelope = .error (.serialization .malformed) ∧ onItsOwn = .error .malformed := by
  cases decodings with
  | @decoded bag type typed => exact absurd rfl (none bag.entries)
  | @refused bag error defect refuses => exact absurd rfl (none bag.entries)
  | noObject => exact ⟨rfl,rfl⟩

end Decodings

/-- Both decoders accept the same texts, those of objects with a text for their type, and decode
them to the same error apart from its call id. The object is written again for it, whether or not
its type is in the table of codes. Of an object that is refused both report the same, each in
its way; of anything else that it cannot be read. -/
theorem decoders_agree (callId text : String) (arguments : Raw) (parsed : Raw.ofText? text = some arguments) :
    ((∃ error, ofArguments callId arguments = .ok error) ↔ IsErrorObject (Reader.value.ofText text)) ∧
    ((∃ error, reader.ofText text = .ok error) ↔ IsErrorObject (Reader.value.ofText text)) ∧
    (∀ error, ofArguments callId arguments = .ok error ↔
      error.callId = callId ∧ reader.ofText text = .ok {error with callId := ""}) ∧
    (∀ error, ofArguments callId arguments = .ok error → ∃ value, Reader.value.ofText text = .ok value ∧
      (∀ other, encode {error with callId := other} = .ok (.ofValue value)) ∧
      ((∀ x ∈ value.doubles, x.Survives) → Reader.value.ofText (Raw.ofValue value).text = .ok value)) ∧
    (∀ members, Reader.value.ofText text = .ok (.object members) → ¬IsErrorObject (Reader.value.ofText text) →
      ∃ error defect, ofArguments callId arguments = .error error ∧ reader.ofText text = .error defect ∧
        Refuses (members.lookup "type") error defect ∧ defect.message = error.message) ∧
    ((∀ members, Reader.value.ofText text ≠ .ok (.object members)) →
      ofArguments callId arguments = .error (.serialization .malformed) ∧ reader.ofText text = .error .malformed) := by
  have both := decodings callId parsed
  refine ⟨both.accepts_iff.1,both.accepts_iff.2,both.eq_ok_iff,?_,?_,both.noObject_eq⟩
  · intro error decoded
    obtain ⟨value,read,encoded⟩ := both.encode_eq decoded
    refine ⟨value,read,encoded,fun survive => ?_⟩
    rw [Reader.ofText_text]
    exact Reader.value_toNode (Reader.root_of_ofText read) survive
  · intro members object untyped
    obtain ⟨error,defect,inEnvelope,onItsOwn,refuses⟩ := both.refuses object untyped
    exact ⟨error,defect,inEnvelope,onItsOwn,refuses,refuses.message_eq⟩

/-- The last type counts, and it is known in any spelling of its text. -/
theorem decoders_agree_escaped :
    let text := " \x7b\"type\":null,\"x\":[1],\"type\":\"not\\u0046ound\"\x7d"
    ∃ arguments error value, Raw.ofText? text = some arguments ∧ ofArguments "c1" arguments = .ok error ∧
      error.callId = "c1" ∧ error.code = .notFound ∧ reader.ofText text = .ok {error with callId := ""} ∧
      encode error = .ok (.ofValue value) ∧ (Raw.ofValue value).text = "\x7b\"type\":\"notFound\",\"x\":[1]\x7d" := by
  intro text
  have checked : (Raw.ofText? text).any fun arguments => (ofArguments "c1" arguments).toOption.any fun error =>
      error.code = .notFound && error.toRaw.text = "\x7b\"type\":\"notFound\",\"x\":[1]\x7d" := by decide +kernel
  cases parsed : Raw.ofText? text with
  | none =>
    rw [parsed] at checked
    contradiction
  | some arguments =>
    rw [parsed] at checked
    obtain ⟨error,decoded,shown⟩ := exists_ok_of_any checked
    obtain ⟨code,written⟩ := Bool.and_eq_true_iff.mp shown
    obtain ⟨_,_,same,encodes,_,_⟩ := decoders_agree "c1" text arguments parsed
    obtain ⟨own,onItsOwn⟩ := (same error).mp decoded
    obtain ⟨value,_,encoded,_⟩ := encodes error decoded
    have raw : error.toRaw = .ofValue value := Except.ok.inj (encoded error.callId)
    exact ⟨arguments,error,value,rfl,decoded,own,of_decide_eq_true code,onItsOwn,encoded error.callId,
      raw ▸ of_decide_eq_true written⟩

end

end MethodError
end Jmap
