import Jmap.BlobInfo
import Jmap.Proofs.Envelope
import Jmap.Proofs.Json.Integers
import Jmap.Proofs.Json.Records

/-! Identifiers and bounded integers at the JSON boundary. What an encoder does with
the values it holds is said by the list of their constrained parts in written order,
and a list is put together as the encoder is. -/
namespace Jmap
open Json Outcome

/-- A part with a rule of its own that is checked where it is written and read. -/
inductive Constrained where
  | integer (n : UnsignedInt)
  | identifier (id : Id)
  deriving DecidableEq

namespace Constrained

def isValid : Constrained → Bool
  | .integer n => n.isValid
  | .identifier id => id.isValid

def violation : Constrained → Violation
  | .integer _ => .outOfRange
  | .identifier id => .invalidId id.text

end Constrained

/-- Succeeds exactly if all parts are valid, and fails otherwise for the first that is not. -/
structure Guarded {A E : Type} (refuse : Violation → E) (outcome : Except E A) (parts : List Constrained) : Prop where
  succeeds_iff : (∃ value, outcome = .ok value) ↔ ∀ part ∈ parts, part.isValid
  fails : ∀ part, parts.find? (!·.isValid) = some part → outcome = .error (refuse part.violation)

namespace Guarded
variable {A B E F : Type} {refuse : Violation → E} {outcome : Except E A} {parts others : List Constrained}

theorem ok (value : A) : Guarded refuse (.ok value) [] := ⟨by simp,by simp⟩

theorem single (part : Constrained) (value : A) :
    Guarded refuse (if part.isValid then .ok value else .error (refuse part.violation)) [part] := by
  cases valid : part.isValid with
  | true => exact ⟨by simp [valid],by simp [valid]⟩
  | false => exact ⟨by simp [valid],by simp [valid]⟩

theorem find?_eq_none : parts.find? (!·.isValid) = none ↔ ∀ part ∈ parts, part.isValid := by simp

theorem eq_error_iff (guarded : Guarded refuse outcome parts) {error : E} :
    outcome = .error error ↔ ∃ part, parts.find? (!·.isValid) = some part ∧ refuse part.violation = error := by
  constructor
  · intro failed
    cases first : parts.find? (!·.isValid) with
    | some part => exact ⟨part,rfl,Except.error.inj ((guarded.fails part first).symm.trans failed)⟩
    | none =>
      obtain ⟨value,succeeded⟩ := guarded.succeeds_iff.mpr (find?_eq_none.mp first)
      cases succeeded.symm.trans failed
  · rintro ⟨part,first,rfl⟩
    exact guarded.fails part first

/-- The parts of the first step come before those of what follows. -/
theorem bind {next : A → Except E B} (first : Guarded refuse outcome parts)
    (following : ∀ value, outcome = .ok value → Guarded refuse (next value) others) :
    Guarded refuse (outcome >>= next) (parts ++ others) := by
  constructor
  · constructor
    · rintro ⟨result,done⟩
      obtain ⟨value,before,after⟩ := bind_eq_ok_iff.mp done
      have early := first.succeeds_iff.mp ⟨value,before⟩
      have late := (following value before).succeeds_iff.mp ⟨result,after⟩
      exact fun part member => (List.mem_append.mp member).elim (early part) (late part)
    · intro valid
      obtain ⟨value,before⟩ := first.succeeds_iff.mpr fun part member => valid part (by simp [member])
      obtain ⟨result,after⟩ := (following value before).succeeds_iff.mpr fun part member => valid part (by simp [member])
      exact ⟨result,bind_eq_ok_iff.mpr ⟨value,before,after⟩⟩
  · intro part found
    rw [List.find?_append] at found
    cases early : parts.find? (!·.isValid) with
    | some culprit =>
      rw [early] at found
      cases found
      rw [first.fails part early,error_bind]
    | none =>
      rw [early,Option.none_or] at found
      obtain ⟨value,before⟩ := first.succeeds_iff.mpr (find?_eq_none.mp early)
      rw [before,ok_bind,(following value before).fails part found]

theorem map (f : A → B) (guarded : Guarded refuse outcome parts) : Guarded refuse (f <$> outcome) parts := by
  cases outcome with
  | ok value => exact ⟨by simpa using guarded.succeeds_iff,fun part found => by simpa using guarded.fails part found⟩
  | error error => exact ⟨by simpa using guarded.succeeds_iff,fun part found => by simpa using guarded.fails part found⟩

theorem mapError (f : E → F) (guarded : Guarded refuse outcome parts) :
    Guarded (fun cause => f (refuse cause)) (outcome.mapError f) parts := by
  constructor
  · simpa only [mapError_eq_ok_iff] using guarded.succeeds_iff
  · intro part found
    rw [guarded.fails part found,mapError_error]

theorem noMembers : Guarded .violation (encodeMembers []) [] := ok _

theorem member {written : Except Defect Raw} {members : List (String × Except Defect Raw)} (name : String)
    (first : Guarded .violation written parts) (rest : Guarded .violation (encodeMembers members) others) :
    Guarded .violation (encodeMembers ((name,written) :: members)) (parts ++ others) := by
  have split : encodeMembers ((name,written) :: members) = do
      let value ← written
      let following ← members.mapM fun member => (member.1,·) <$> member.2
      return Raw.ofMembers ((name,value) :: following) := by
    rw [encodeMembers,List.mapM_cons]
    cases written with
    | error => rfl
    | ok value => cases members.mapM fun member : String × Except Defect Raw => (member.1,·) <$> member.2 <;> rfl
  rw [split]
  refine bind first fun value _ => ?_
  constructor
  · rw [← rest.succeeds_iff]
    simp [encodeMembers,bind_eq_ok_iff,map_eq_ok_iff]
  · intro part found
    have failed := map_eq_error_iff.mp (rest.fails part found)
    rw [failed,error_bind]

theorem entries {B : Type} {entries : List (String × B)} {written : String × B → Except Defect Raw}
    {partsOf : String × B → List Constrained} (each : ∀ entry ∈ entries, Guarded .violation (written entry) (partsOf entry)) :
    Guarded .violation (encodeMembers (entries.map fun entry => (entry.1,written entry))) (entries.flatMap partsOf) := by
  induction entries with
  | nil => exact noMembers
  | cons entry entries ih =>
    exact member entry.1 (each entry (by simp)) (ih fun other inside => each other (by simp [inside]))

end Guarded

theorem Json.text_encode {text : String} {raw : Raw} (encoded : encode text = .ok raw) (room : Nat) :
    Reader.text room raw.node = .ok text := by
  cases encoded
  exact Reader.text_ofString room text

theorem Json.bool_encode {value : Bool} {raw : Raw} (encoded : encode value = .ok raw) (room : Nat) :
    Reader.bool room raw.node = .ok value := by
  cases encoded
  rfl

namespace UnsignedInt

theorem guarded (n : UnsignedInt) : Guarded .violation (encode n) [.integer n] :=
  Guarded.single (.integer n) (Raw.ofInt n.value)

theorem fitsWord {n : UnsignedInt} (valid : n.isValid) : FitsWord n.value ∧ (n.value : Int) ≤ wordMax := by
  have largest : maxSafeInteger ≤ wordMax := by decide
  have bounded : (n.value : Int) ≤ maxSafeInteger := by simpa [isValid] using valid
  exact ⟨⟨by omega,by omega⟩,by omega⟩

theorem isValid_of_read {room : Nat} {node : Node} {n : UnsignedInt} (read : reader room node = .ok n) : n.isValid := by
  obtain ⟨value,_,checked⟩ := bind_eq_ok_iff.mp read
  rw [mapError_eq_ok_iff,new] at checked
  split at checked
  · cases checked
    assumption
  · contradiction

theorem reader_encode {n : UnsignedInt} {raw : Raw} (encoded : encode n = .ok raw) (room : Nat) :
    reader room raw.node = .ok n := by
  have valid : n.isValid := (guarded n).succeeds_iff.mp ⟨raw,encoded⟩ (.integer n) (by simp)
  obtain ⟨fits,bounded⟩ := fitsWord valid
  have written : (encode n : Except Defect Raw) = .ok (.ofInt n.value) := if_pos valid
  cases written.symm.trans encoded
  have read : Reader.integer 0 wordMax room (Raw.ofInt n.value).node = .ok n.value := by
    simp [Reader.integer,Raw.ofInt,Node.ofInt,Number.ofLiteral?_ofInt fits,bounded]
  rw [reader,Reader.andThen,read,ok_bind,Int.toNat_natCast,new,if_pos valid]
  rfl

end UnsignedInt

namespace Id

theorem guarded (id : Id) : Guarded .violation (encode id) [.identifier id] :=
  Guarded.single (.identifier id) (Raw.ofString id.text)

theorem guarded_checkKey (key : String) : Guarded .violation (checkKey key) [.identifier ⟨key⟩] := by
  have checked : Guarded (fun cause => cause) (new key) [.identifier ⟨key⟩] :=
    Guarded.single (.identifier ⟨key⟩) (⟨key⟩ : Id)
  exact (checked.mapError Defect.violation).map _

theorem checkKey_eq_ok {key : String} (valid : isValid ⟨key⟩) : checkKey key = .ok () := by
  simp [checkKey,new,valid]

theorem isValid_of_checkKey {key : String} (checked : checkKey key = .ok ()) : isValid ⟨key⟩ :=
  (guarded_checkKey key).succeeds_iff.mp ⟨(),checked⟩ (.identifier ⟨key⟩) (by simp)

theorem isValid_of_read {room : Nat} {node : Node} {id : Id} (read : reader room node = .ok id) : id.isValid := by
  obtain ⟨text,_,checked⟩ := bind_eq_ok_iff.mp read
  rw [mapError_eq_ok_iff,new] at checked
  split at checked
  · cases checked
    assumption
  · contradiction

theorem guarded_encodeMap {A : Type} [Writable A] {map : SortedMap A} (partsOf : A → List Constrained)
    (each : ∀ entry ∈ map.entries, Guarded .violation (encode entry.2) (partsOf entry.2)) :
    Guarded .violation (encodeMap map) (map.entries.flatMap fun entry => .identifier ⟨entry.1⟩ :: partsOf entry.2) :=
  Guarded.entries fun entry member => (guarded_checkKey entry.1).bind fun _ _ => each entry member

end Id

namespace BlobInfo

def constrained (info : BlobInfo) : List Constrained := [.identifier info.accountId,.identifier info.blobId,.integer info.size]

theorem guarded (info : BlobInfo) : Guarded .violation (encode info) info.constrained := by
  have text : Guarded .violation (encode info.contentType) [] := Guarded.ok _
  have written := Guarded.member "accountId" info.accountId.guarded (.member "blobId" info.blobId.guarded
    (.member "type" text (.member "size" info.size.guarded .noMembers)))
  exact written

theorem reader_encode {info : BlobInfo} {raw : Raw} (encoded : encode info = .ok raw) (room : Nat) :
    reader (room + 1) raw.node = .ok info := by
  refine Reader.record_encoded (by decide) ?_ encoded
  refine .of (fun _ part => Id.reader_encode part room) ?_
  refine .of (fun _ part => Id.reader_encode part room) ?_
  refine .of (fun _ part => text_encode part room) ?_
  exact .of (fun _ part => UnsignedInt.reader_encode part room) .nil

/-- The parts that have a rule are required, so none of them is one that was there before. -/
theorem isValid_of_read {room : Nat} {node : Node} {info : BlobInfo} (read : reader room node = .ok info) :
    ∀ part ∈ info.constrained, part.isValid := by
  obtain ⟨inner,seen,_,made,required⟩ := Reader.made_of_record read
  have valid : ("accountId" ∈ seen → info.accountId.isValid) ∧ ("blobId" ∈ seen → info.blobId.isValid) ∧
      ("size" ∈ seen → info.size.isValid) := by
    clear required read
    induction made with
    | start => simp
    | field made member read ih =>
      simp only [List.mem_cons,List.not_mem_nil,or_false] at member
      rcases member with rfl | rfl | rfl | rfl
      · obtain ⟨id,inside,rfl⟩ := map_eq_ok_iff.mp read
        have valid := Id.isValid_of_read inside
        simpa [RecordField.of,valid] using ih.2
      · obtain ⟨id,inside,rfl⟩ := map_eq_ok_iff.mp read
        have valid := Id.isValid_of_read inside
        simpa [RecordField.of,valid] using ⟨ih.1,ih.2.2⟩
      · obtain ⟨text,_,rfl⟩ := map_eq_ok_iff.mp read
        simpa [RecordField.of] using ih
      · obtain ⟨n,inside,rfl⟩ := map_eq_ok_iff.mp read
        have valid := UnsignedInt.isValid_of_read inside
        simpa [RecordField.of,valid] using ⟨ih.1,ih.2.1⟩
  simp only [List.forall_mem_cons] at required
  obtain ⟨account,blob,_,size,_⟩ := required
  simp only [constrained,List.forall_mem_cons]
  exact ⟨valid.1 (account rfl),valid.2.1 (blob rfl),valid.2.2 (size rfl),by simp⟩

end BlobInfo
end Jmap
