import Jmap.Proofs.Json.Reading
import Jmap.Proofs.Json.Rereading

/-! Records as wholes: one that was read came about by changes that its fields made,
every required field among them, and one that was written with all its fields in
their order is read back. -/
namespace Jmap.Json
open Outcome

variable {A R : Type} {fields : List (RecordField R)} {room : Nat} {start : R}

/-- What fields can make of a record, with the names of those that did. -/
inductive Made (fields : List (RecordField R)) (room : Nat) (start : R) : List String → R → Prop where
  | start : Made fields room start [] start
  | field {seen : List String} {record : R} {field : RecordField R} {node : Node} {change : R → R}
    (made : Made fields room start seen record) (member : field ∈ fields)
    (read : field.read room node = .ok change) : Made fields room start (field.name :: seen) (change record)

theorem Made.of_readField {label : Label} {value : Node} {state next : Progress R}
    (made : Made fields room start state.seen state.record) (read : readField fields room label value state = .ok next) :
    Made fields room start next.seen next.record := by
  unfold readField at read
  split at read
  · contradiction
  next key _ =>
    split at read
    · split at read
      · cases read
        exact made
      · contradiction
    next field found =>
      have named : field.name = key := by simpa using List.find?_some found
      split at read
      · contradiction
      · obtain ⟨change,inner,same⟩ := bind_eq_ok_iff.mp read
        cases same
        exact named ▸ made.field (List.mem_of_find?_eq_some found) inner

theorem Made.of_members : ∀ {members : Members} {state result : Progress R},
    Made fields room start state.seen state.record → members.readFields fields room state = .ok result →
      Made fields room start result.seen result.record
  | .last label value after,state,result,made,read => by
    have last : readField fields room label value state = .ok result := read
    exact made.of_readField last
  | .more label value after rest,state,result,made,read => by
    obtain ⟨next,first,following⟩ := bind_eq_ok_iff.mp read
    exact Made.of_members (made.of_readField first) following
  | .cut label value,state,result,made,read => by
    obtain ⟨_,_,impossible⟩ := bind_eq_ok_iff.mp read
    contradiction
  | .stop,state,result,made,read => by contradiction

/-- Of an array the fields are read from some place on; what may be left out at the
end is not required. -/
theorem Made.of_items {rest : List (RecordField R)} (known : ∀ field ∈ rest, field ∈ fields) :
    ∀ {items : Items} {seen : List String} {record result : R}, Made fields room start seen record →
      items.readFields room rest record = .ok result →
      ∃ names, Made fields room start (names ++ seen) result ∧
        ∀ field ∈ rest, field.presence = .required → field.name ∈ names := by
  induction rest with
  | nil => intro items seen record result made read; contradiction
  | cons first rest ih =>
    intro items seen record result made read
    cases items with
    | last before item after =>
      obtain ⟨change,inner,following⟩ := bind_eq_ok_iff.mp read
      split at following
      next optional =>
        cases following
        refine ⟨[first.name],made.field (known first (by simp)) inner,fun field member required => ?_⟩
        rcases List.mem_cons.mp member with rfl | inside
        · simp
        · have defaulted := List.all_eq_true.mp optional field inside
          simp [required] at defaulted
      next => contradiction
    | more before item after items =>
      obtain ⟨change,inner,following⟩ := bind_eq_ok_iff.mp read
      have next := made.field (known first (by simp)) inner
      obtain ⟨names,whole,covered⟩ := ih (fun field member => known field (by simp [member])) next following
      refine ⟨names ++ [first.name],by simpa using whole,fun field member required => ?_⟩
      rcases List.mem_cons.mp member with rfl | inside
      · simp
      · simp [covered field inside required]
    | cut before item =>
      obtain ⟨_,_,impossible⟩ := bind_eq_ok_iff.mp read
      contradiction

theorem required_of_finish {state : Progress R} {result : R} (finished : finish fields state = .ok result) :
    ∀ field ∈ fields, field.presence = .required → field.name ∈ state.seen := by
  intro field member required
  unfold finish at finished
  split at finished
  · contradiction
  next none =>
    have present := List.find?_eq_none.mp none field member
    simpa [required] using present

theorem Reader.made_of_record {node : Node} {result : R} (read : Reader.record fields start room node = .ok result) :
    ∃ inner seen, room = inner + 1 ∧ Made fields inner start seen result ∧
      ∀ field ∈ fields, field.presence = .required → field.name ∈ seen := by
  unfold Reader.record at read
  split at read
  · contradiction
  next room _ =>
    refine ⟨room,[],rfl,?_,required_of_finish read⟩
    rw [get_of_finish read]
    exact .start
  next room members =>
    obtain ⟨state,inner,finished⟩ := bind_eq_ok_iff.mp read
    refine ⟨room,state.seen,rfl,?_,required_of_finish finished⟩
    rw [get_of_finish finished]
    exact Made.of_members .start inner
  next room _ =>
    split at read
    next optional =>
      cases read
      refine ⟨room,[],rfl,.start,fun field member required => ?_⟩
      have defaulted := List.all_eq_true.mp optional field member
      simp [required] at defaulted
    next => contradiction
  next room items =>
    obtain ⟨names,made,covered⟩ := Made.of_items (fun _ member => member) .start read
    exact ⟨room,names,rfl,by simpa using made,covered⟩
  · contradiction

/-- A property that the record starts with and that every field keeps. -/
theorem Made.invariant {P : R → Prop} {seen : List String} {result : R} (made : Made fields room start seen result)
    (initially : P start) (keeps : ∀ field ∈ fields, ∀ node change, field.read room node = .ok change →
      ∀ record, P record → P (change record)) : P result := by
  induction made with
  | start => exact initially
  | field made member read ih => exact keeps _ member _ _ read _ ih

/-- All fields of a record are written, in their order, and each is read back as the
change that its field makes. -/
inductive Rewrites (room : Nat) : List (RecordField R) → List (String × Except Defect Raw) → R → R → Prop where
  | nil {record : R} : Rewrites room [] [] record record
  | cons {field : RecordField R} {fields : List (RecordField R)} {written : Except Defect Raw}
    {members : List (String × Except Defect Raw)} {change : R → R} {record result : R}
    (reads : ∀ raw, written = .ok raw → field.read room raw.node = .ok change)
    (rest : Rewrites room fields members (change record) result) :
    Rewrites room (field :: fields) ((field.name,written) :: members) record result

theorem Rewrites.of {name : String} {presence : Presence} {reader : Reader A} {set : A → R → R} {value : A}
    {written : Except Defect Raw} {members : List (String × Except Defect Raw)} {record result : R}
    (reads : ∀ raw, written = .ok raw → reader room raw.node = .ok value)
    (rest : Rewrites room fields members (set value record) result) :
    Rewrites room (.of name presence reader set :: fields) ((name,written) :: members) record result := by
  have changes : ∀ raw, written = .ok raw → (RecordField.of name presence reader set).read room raw.node = .ok (set value) :=
    fun raw same => map_eq_ok_iff.mpr ⟨value,reads raw same,rfl⟩
  exact .cons changes rest

theorem find?_field (distinct : (fields.map (·.name)).Nodup) {field : RecordField R} (member : field ∈ fields) :
    fields.find? (·.name == field.name) = some field := by
  obtain ⟨before,after,split⟩ := List.mem_iff_append.mp member
  refine List.find?_eq_some_iff_append.mpr ⟨by simp,before,after,split,fun other earlier => ?_⟩
  rw [split,List.map_append,List.map_cons,List.nodup_append] at distinct
  have different : other.name ≠ field.name :=
    distinct.2.2 other.name (List.mem_map_of_mem earlier) field.name (by simp)
  simpa using different

theorem Rewrites.foldlM {rest : List (RecordField R)} {members : List (String × Except Defect Raw)} {record result : R}
    (rewrites : Rewrites room rest members record result) {written : List (String × Raw)}
    (parts : List.Forall₂ (fun member part => member.1 = part.1 ∧ member.2 = .ok part.2) members written)
    (known : ∀ field ∈ rest, fields.find? (·.name == field.name) = some field)
    (distinct : (rest.map (·.name)).Nodup) {seen : List String} (fresh : ∀ field ∈ rest, field.name ∉ seen) :
    ∃ names, (written.map fun member => (member.1,member.2.node)).foldlM (readNamed fields room) ⟨seen,record⟩ =
      .ok ⟨names ++ seen,result⟩ ∧ ∀ field ∈ rest, field.name ∈ names := by
  induction rewrites generalizing written seen with
  | nil =>
    cases parts
    exact ⟨[],rfl,by simp⟩
  | @cons field rest _ members change record result reads following ih =>
    cases parts with
    | @cons _ part _ parts head tail =>
      obtain ⟨same,encoded⟩ := head
      simp only [List.map_cons,List.nodup_cons] at distinct
      have unseen := fresh field (by simp)
      have first : readNamed fields room ⟨seen,record⟩ (part.1,part.2.node) =
          .ok ⟨field.name :: seen,change record⟩ := by
        simp [readNamed,readField,← same,known field (by simp),unseen,reads part.2 encoded]
      have later : ∀ other ∈ rest, other.name ∉ field.name :: seen := by
        intro other member repeated
        rcases List.mem_cons.mp repeated with own | earlier
        · exact distinct.1 (own ▸ List.mem_map_of_mem member)
        · exact fresh other (by simp [member]) earlier
      obtain ⟨names,walked,covered⟩ := ih tail (fun other member => known other (by simp [member])) distinct.2 later
      refine ⟨names ++ [field.name],?_,fun other member => ?_⟩
      · rw [List.map_cons,List.foldlM_cons,first,ok_bind,walked]
        simp
      · rcases List.mem_cons.mp member with rfl | inside
        · simp
        · simp [covered other inside]

theorem Reader.record_encoded {members : List (String × Except Defect Raw)} {result : R} {raw : Raw}
    (distinct : (fields.map (·.name)).Nodup) (rewrites : Rewrites room fields members start result)
    (encoded : encodeMembers members = .ok raw) : Reader.record fields start (room + 1) raw.node = .ok result := by
  obtain ⟨written,parts,rfl⟩ := encodeMembers_eq_ok_iff.mp encoded
  obtain ⟨names,walked,covered⟩ := rewrites.foldlM parts (fun _ => find?_field distinct) distinct (fun _ _ => List.not_mem_nil)
  have complete : fields.find? (fun field => field.presence == .required && !(names ++ []).contains field.name) = none := by
    rw [List.find?_eq_none]
    intro field member
    simp [covered field member]
  change Reader.record fields start (room + 1) (.ofMembers (written.map fun member => (member.1,member.2.node))) = _
  rw [Reader.record_ofMembers,walked,ok_bind,finish,complete]
  rfl

end Jmap.Json
