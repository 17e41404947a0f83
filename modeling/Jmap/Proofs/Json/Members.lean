import Jmap.Proofs.Json.Derivation
import Jmap.Proofs.Json.Records

/-! Records of fields that may all be left out. Whether one is read, and as what, is decided
by the parts that its fields find: in an object under their names, in an array at their places. -/
namespace Jmap.Json
open Outcome

variable {R : Type} {fields : List (RecordField R)} {room : Nat} {start : R}

/-- The members in their order, each with a key that can be read and a value that breaks off nowhere. -/
inductive Members.Holds : Members → List (String × Node) → Prop where
  | last {label : Label} {value : Node} {after : Gap} {name : String} (key : label.key.text? = some name)
    (closed : value.isClosed) : Holds (.last label value after) [(name,value)]
  | more {label : Label} {value : Node} {after : Gap} {name : String} {rest : Members} {entries : List (String × Node)}
    (key : label.key.text? = some name) (closed : value.isClosed) (later : rest.Holds entries) :
    Holds (.more label value after rest) ((name,value) :: entries)

inductive Node.Holds : Node → List (String × Node) → Prop where
  | empty (inside : Gap) : Holds (.emptyObject inside) []
  | members {members : Members} {entries : List (String × Node)} (holds : members.Holds entries) :
    Holds (.object members) entries

theorem Members.Holds.isClosed {members : Members} {entries : List (String × Node)} (holds : members.Holds entries) :
    members.isClosed := by
  induction holds with
  | last key closed => exact closed
  | more key closed later ih => simp [Members.isClosed,closed,ih]

theorem Members.Holds.find? {members : Members} {entries : List (String × Node)} (holds : members.Holds entries)
    (name : String) : members.find? name = entries.lookup name := by
  induction holds with
  | @last _ _ _ own key _ =>
    rw [Members.find?,key,SortedMap.lookup_entry]
    simp [eq_comm]
  | @more _ _ _ own rest entries key _ _ ih =>
    rw [Members.find?,key,List.lookup_cons,ih]
    by_cases same : name = own
    · simp [same]
    · rw [if_neg (by simpa using Ne.symm same),beq_eq_false_iff_ne.mpr same]

theorem Members.isClosed_of_find? {name : String} {part : Node} :
    ∀ members : Members, members.isClosed → members.find? name = some part → part.isClosed
  | .last label value after,closed,found => by
    obtain ⟨_,same⟩ := Option.ite_none_right_eq_some.mp found
    cases same
    exact closed
  | .more label value after rest,closed,found => by
    simp only [Members.isClosed,Bool.and_eq_true] at closed
    rw [Members.find?] at found
    split at found
    · cases found
      exact closed.1
    · exact rest.isClosed_of_find? closed.2 found

theorem Items.isClosed_of_mem {item : Node} : ∀ items : Items, items.isClosed → item ∈ items.toList → item.isClosed
  | .last before own after,closed,member => by
    rw [List.mem_singleton.mp member]
    exact closed
  | .more before own after rest,closed,member => by
    simp only [Items.isClosed,Bool.and_eq_true] at closed
    rcases List.mem_cons.mp member with rfl | later
    · exact closed.1
    · exact rest.isClosed_of_mem closed.2 later

namespace Node

theorem Holds.isClosed {node : Node} {entries : List (String × Node)} (holds : node.Holds entries) : node.isClosed := by
  cases holds with
  | empty => rfl
  | members holds => exact holds.isClosed

theorem Holds.field? {node : Node} {entries : List (String × Node)} (holds : node.Holds entries) (name : String)
    (place : Nat) : node.field? name place = entries.lookup name := by
  cases holds with
  | empty => rfl
  | members holds => exact holds.find? name

theorem isClosed_of_field? {node part : Node} {name : String} {place : Nat} (closed : node.isClosed)
    (found : node.field? name place = some part) : part.isClosed := by
  cases node with
  | array items => exact items.isClosed_of_mem closed (List.mem_of_getElem? found)
  | object members => exact members.isClosed_of_find? closed found
  | _ => contradiction

theorem field?_of_items {node : Node} {nodes : List Node} (items : node.items? = some nodes) (name : String)
    (place : Nat) : node.field? name place = nodes[place]? := by
  cases node with
  | emptyArray => cases items; rfl
  | array => cases items; rfl
  | _ => contradiction

end Node

/-- Which fields of a record a node presents is not in doubt: an object repeats no name
among them, and an array is not longer than they are. -/
inductive Presents (fields : List (RecordField R)) : Node → Prop where
  | object {node : Node} {entries : List (String × Node)} (holds : node.Holds entries)
    (once : ∀ field ∈ fields, (entries.map Prod.fst).count field.name ≤ 1) : Presents fields node
  | array {node : Node} {nodes : List Node} (closed : node.isClosed) (items : node.items? = some nodes)
    (short : nodes.length ≤ fields.length) : Presents fields node

theorem Presents.isClosed {node : Node} (presents : Presents fields node) : node.isClosed := by
  cases presents with
  | object holds once => exact holds.isClosed
  | array closed items short => exact closed

/-- Each field that finds its part can read it. -/
def Reads (fields : List (RecordField R)) (room : Nat) (node : Node) : Prop :=
  ∀ (place : Nat) (field : RecordField R), fields[place]? = some field →
    ∀ part, node.field? field.name place = some part → ∃ change, field.read room part = .ok change

/-- The members of an object are read, in whichever order they stand. -/
structure Readable (fields : List (RecordField R)) (room : Nat) (seen : List String) (entries : List (String × Node)) :
    Prop where
  fresh : ∀ field ∈ fields, field.name ∈ seen → field.name ∉ entries.map Prod.fst
  once : ∀ field ∈ fields, (entries.map Prod.fst).count field.name ≤ 1
  reads : ∀ entry ∈ entries, ∀ field ∈ fields, field.name = entry.1 → ∃ change, field.read room entry.2 = .ok change

theorem readField_of_unknown {label : Label} {value : Node} {name : String} {state : Progress R}
    (key : label.key.text? = some name) (closed : value.isClosed) (unknown : ∀ field ∈ fields, field.name ≠ name) :
    readField fields room label value state = .ok state := by
  have absent : fields.find? (·.name == name) = none := List.find?_eq_none.mpr (by simpa using unknown)
  simp [readField,key,absent,closed]

theorem readField_of_known (distinct : (fields.map (·.name)).Nodup) {label : Label} {value : Node} {state : Progress R}
    {field : RecordField R} (member : field ∈ fields) (key : label.key.text? = some field.name) :
    readField fields room label value state =
      if state.seen.contains field.name then .error (.duplicateField field.name)
      else (fun change => ⟨field.name :: state.seen,change state.record⟩) <$> field.read room value := by
  unfold readField
  rw [key]
  dsimp only
  rw [find?_field distinct member]
  rfl

theorem readable_cons_of_unknown {seen : List String} {name : String} {value : Node} {entries : List (String × Node)}
    (unknown : ∀ field ∈ fields, field.name ≠ name) :
    Readable fields room seen ((name,value) :: entries) ↔ Readable fields room seen entries := by
  have absent (field) (member : field ∈ fields) : (name == field.name) = false :=
    beq_eq_false_iff_ne.mpr (unknown field member).symm
  constructor
  · rintro ⟨fresh,once,reads⟩
    refine ⟨fun field member seen inside => ?_,fun field member => ?_,fun entry inside => ?_⟩
    · exact fresh field member seen (List.mem_cons_of_mem _ inside)
    · simpa [List.count_cons,absent field member] using once field member
    · exact reads entry (List.mem_cons_of_mem _ inside)
  · rintro ⟨fresh,once,reads⟩
    refine ⟨fun field member seen inside => ?_,fun field member => ?_,fun entry inside field member named => ?_⟩
    · rcases List.mem_cons.mp inside with same | later
      · exact unknown field member same
      · exact fresh field member seen later
    · simpa [List.count_cons,absent field member] using once field member
    · rcases List.mem_cons.mp inside with rfl | later
      · exact absurd named (unknown field member)
      · exact reads entry later field member named

theorem eq_of_name_eq (distinct : (fields.map (·.name)).Nodup) {field other : RecordField R} (member : field ∈ fields)
    (inside : other ∈ fields) (same : field.name = other.name) : field = other :=
  List.inj_on_of_nodup_map distinct member inside same

theorem readable_cons_of_known (distinct : (fields.map (·.name)).Nodup) {seen : List String} {value : Node}
    {entries : List (String × Node)} {field : RecordField R} (member : field ∈ fields) :
    Readable fields room seen ((field.name,value) :: entries) ↔
      field.name ∉ seen ∧ (∃ change, field.read room value = .ok change) ∧
        Readable fields room (field.name :: seen) entries := by
  constructor
  · rintro ⟨fresh,once,reads⟩
    have alone := once field member
    simp only [List.map_cons,List.count_cons_self] at alone
    have absent : field.name ∉ entries.map Prod.fst := List.count_eq_zero.mp (by omega)
    refine ⟨fun earlier => fresh field member earlier (by simp),reads _ List.mem_cons_self field member rfl,?_,?_,?_⟩
    · intro other inside earlier
      rcases List.mem_cons.mp earlier with same | earlier
      · rwa [same]
      · exact fun later => fresh other inside earlier (List.mem_cons_of_mem _ later)
    · exact fun other inside => (List.count_le_count_cons).trans (once other inside)
    · exact fun entry later => reads entry (List.mem_cons_of_mem _ later)
  · rintro ⟨unseen,read,fresh,once,reads⟩
    have absent := fresh field member List.mem_cons_self
    refine ⟨fun other inside earlier => ?_,fun other inside => ?_,fun entry later other inside named => ?_⟩
    · have later := fresh other inside (List.mem_cons_of_mem _ earlier)
      have different : other.name ≠ field.name := by
        intro same
        exact unseen (same ▸ earlier)
      simpa [different] using later
    · by_cases same : other.name = field.name
      · simp [same,List.count_eq_zero.mpr absent]
      · have different : (field.name == other.name) = false := beq_eq_false_iff_ne.mpr (Ne.symm same)
        simpa [List.count_cons,different] using once other inside
    · rcases List.mem_cons.mp later with rfl | later
      · rwa [eq_of_name_eq distinct inside member named]
      · exact reads entry later other inside named

theorem Members.Holds.exists_readFields (distinct : (fields.map (·.name)).Nodup) {members : Members}
    {entries : List (String × Node)} (holds : members.Holds entries) (state : Progress R) :
    (∃ result, members.readFields fields room state = .ok result) ↔ Readable fields room state.seen entries := by
  have nothing (seen : List String) : Readable fields room seen [] := ⟨by simp,by simp,by simp⟩
  induction holds generalizing state with
  | @last label value after name key closed =>
    change (∃ result, readField fields room label value state = .ok result) ↔ _
    by_cases known : ∃ field ∈ fields, field.name = name
    · obtain ⟨field,member,rfl⟩ := known
      rw [readField_of_known distinct member key,readable_cons_of_known distinct member]
      by_cases seen : field.name ∈ state.seen
      · simp [seen]
      · cases read : field.read room value with
        | error => simp [seen]
        | ok change => simp [seen,nothing]
    · rw [readField_of_unknown key closed (by simpa using known),readable_cons_of_unknown (by simpa using known)]
      simp [nothing]
  | @more label value after name rest entries key closed later ih =>
    change (∃ result, readField fields room label value state >>= rest.readFields fields room = .ok result) ↔ _
    by_cases known : ∃ field ∈ fields, field.name = name
    · obtain ⟨field,member,rfl⟩ := known
      rw [readField_of_known distinct member key,readable_cons_of_known distinct member]
      by_cases seen : field.name ∈ state.seen
      · simp [seen]
      · cases read : field.read room value with
        | error => simp [seen]
        | ok change => simp [seen,ih]
    · rw [readField_of_unknown key closed (by simpa using known),readable_cons_of_unknown (by simpa using known)]
      exact ih state

theorem exists_key_of_readField {label : Label} {value : Node} {state next : Progress R}
    (read : readField fields room label value state = .ok next) : ∃ name, label.key.text? = some name := by
  cases key : label.key.text? with
  | none => simp [readField,key] at read
  | some name => exact ⟨name,rfl⟩

theorem Members.exists_holds (whole : ∀ field ∈ fields, field.read.Whole) :
    ∀ {members : Members} {state result : Progress R}, members.readFields fields room state = .ok result →
      ∃ entries, members.Holds entries
  | .last label value after,state,result,read => by
    have last : readField fields room label value state = .ok result := read
    obtain ⟨name,key⟩ := exists_key_of_readField last
    exact ⟨_,.last key (isClosed_of_readField whole last)⟩
  | .more label value after rest,state,result,read => by
    obtain ⟨next,first,following⟩ := bind_eq_ok_iff.mp read
    obtain ⟨name,key⟩ := exists_key_of_readField first
    obtain ⟨entries,later⟩ := Members.exists_holds whole following
    exact ⟨_,.more key (isClosed_of_readField whole first) later⟩
  | .cut label value,state,result,read => by
    obtain ⟨_,_,impossible⟩ := bind_eq_ok_iff.mp read
    contradiction
  | .stop,state,result,read => by contradiction

/-- Each of the parts stands at the place of a field that can read it. -/
def ReadsInOrder (room : Nat) (fields : List (RecordField R)) (parts : List Node) : Prop :=
  parts.length ≤ fields.length ∧ ∀ (place : Nat) (field : RecordField R), fields[place]? = some field →
    ∀ part, parts[place]? = some part → ∃ change, field.read room part = .ok change

theorem readsInOrder_cons {field : RecordField R} {part : Node} {parts : List Node} :
    ReadsInOrder room (field :: fields) (part :: parts) ↔
      (∃ change, field.read room part = .ok change) ∧ ReadsInOrder room fields parts := by
  constructor
  · rintro ⟨short,reads⟩
    exact ⟨reads 0 field rfl part rfl,by simpa using short,fun place => reads (place + 1)⟩
  · rintro ⟨first,short,reads⟩
    refine ⟨by simpa using short,fun place other here item there => ?_⟩
    cases place with
    | zero =>
      cases here
      cases there
      exact first
    | succ place => exact reads place other here item there

theorem Items.exists_readFields (defaulted : ∀ field ∈ fields, field.presence = .defaulted) {items : Items}
    (closed : items.isClosed) (record : R) :
    (∃ result, items.readFields room fields record = .ok result) ↔ ReadsInOrder room fields items.toList := by
  induction fields generalizing items record with
  | nil => cases items <;> simp [Items.readFields,ReadsInOrder,Items.toList]
  | cons field rest ih =>
    obtain ⟨_,others⟩ := List.forall_mem_cons.mp defaulted
    cases items with
    | last before item after =>
      have optional : rest.all (·.presence == .defaulted) = true := by simpa using others
      rw [Items.toList,readsInOrder_cons,Items.readFields,optional]
      cases read : field.read room item <;> simp [ReadsInOrder]
    | more before item after items =>
      simp only [Items.isClosed,Bool.and_eq_true] at closed
      rw [Items.toList,readsInOrder_cons,Items.readFields]
      cases read : field.read room item with
      | error => simp
      | ok change => simp [ih others closed.2]
    | cut before item => contradiction

theorem lookup_eq_some_iff_mem {B : Type} {entries : List (String × B)} {name : String} {value : B}
    (once : (entries.map Prod.fst).count name ≤ 1) : entries.lookup name = some value ↔ (name,value) ∈ entries := by
  induction entries with
  | nil => simp
  | cons entry entries ih =>
    obtain ⟨key,own⟩ := entry
    by_cases same : name = key
    · subst same
      simp only [List.map_cons,List.count_cons_self] at once
      have absent : name ∉ entries.map Prod.fst := List.count_eq_zero.mp (by omega)
      have nowhere : (name,value) ∉ entries := fun member => absent (List.mem_map_of_mem member)
      simp [nowhere,eq_comm]
    · have different : (key == name) = false := beq_eq_false_iff_ne.mpr (Ne.symm same)
      have fewer : (entries.map Prod.fst).count name ≤ 1 := by simpa [List.count_cons,different] using once
      rw [List.lookup_cons,beq_eq_false_iff_ne.mpr same]
      simp [ih fewer,same]

theorem readable_iff {entries : List (String × Node)} : Readable fields room [] entries ↔
    (∀ field ∈ fields, (entries.map Prod.fst).count field.name ≤ 1) ∧
      ∀ field ∈ fields, ∀ part, entries.lookup field.name = some part → ∃ change, field.read room part = .ok change := by
  constructor
  · rintro ⟨_,once,reads⟩
    exact ⟨once,fun field member part found => reads _ ((lookup_eq_some_iff_mem (once field member)).mp found) field member rfl⟩
  · rintro ⟨once,reads⟩
    refine ⟨by simp,once,fun ⟨name,part⟩ inside field member named => ?_⟩
    cases named
    exact reads field member part ((lookup_eq_some_iff_mem (once field member)).mpr inside)

theorem finish_of_defaulted (defaulted : ∀ field ∈ fields, field.presence = .defaulted) (state : Progress R) :
    finish fields state = .ok state.record := by
  have none : fields.find? (fun field => field.presence == .required && !state.seen.contains field.name) = none :=
    List.find?_eq_none.mpr fun field member => by simp [defaulted field member]
  rw [finish,none]
  rfl

namespace Reader

theorem exists_record_of_holds (distinct : (fields.map (·.name)).Nodup)
    (defaulted : ∀ field ∈ fields, field.presence = .defaulted) {node : Node} {entries : List (String × Node)}
    (holds : node.Holds entries) : (∃ result, Reader.record fields start (room + 1) node = .ok result) ↔
      (∀ field ∈ fields, (entries.map Prod.fst).count field.name ≤ 1) ∧ Reads fields room node := by
  have parts : Reads fields room node ↔
      ∀ field ∈ fields, ∀ part, entries.lookup field.name = some part → ∃ change, field.read room part = .ok change := by
    simp only [Reads,holds.field?,List.mem_iff_getElem?]
    exact ⟨fun reads field ⟨place,here⟩ => reads place field here,fun reads place field here => reads field ⟨place,here⟩⟩
  rw [parts,← readable_iff]
  cases holds with
  | empty inside =>
    refine ⟨fun _ => ⟨by simp,by simp,by simp⟩,fun _ => ⟨start,?_⟩⟩
    rw [Reader.record,finish_of_defaulted defaulted]
  | @members members _ holds =>
    rw [← holds.exists_readFields distinct ⟨[],start⟩]
    simp only [Reader.record,finish_of_defaulted defaulted]
    cases members.readFields fields room ⟨[],start⟩ <;> simp

theorem exists_record_of_items (defaulted : ∀ field ∈ fields, field.presence = .defaulted) {node : Node}
    {nodes : List Node} (closed : node.isClosed) (items : node.items? = some nodes) :
    (∃ result, Reader.record fields start (room + 1) node = .ok result) ↔
      nodes.length ≤ fields.length ∧ Reads fields room node := by
  simp only [Reads,Node.field?_of_items items]
  cases node with
  | emptyArray inside =>
    cases items
    have optional : fields.all (·.presence == .defaulted) = true := by simpa using defaulted
    simp [Reader.record,optional]
  | array parts =>
    cases items
    exact Items.exists_readFields defaulted closed start
  | _ => contradiction

end Reader

/-- The field has this name and may be left out. Where it is not, its default changes nothing. -/
structure Slot (start : R) (field : RecordField R) (slot : String × String) : Prop where
  name : field.name = slot.1
  defaulted : field.presence = .defaulted
  whole : field.read.Whole
  default : ∃ node : Node, node.isClosed ∧ node.print = slot.2.toList ∧
    ∀ room, ∃ change, field.read (room + 1) node = .ok change ∧ change start = start

/-- A record of fields with these names and defaults, which is nothing but what its fields show. -/
structure Lenient (fields : List (RecordField R)) (start : R) (slots : List (String × String)) : Prop where
  distinct : (fields.map (·.name)).Nodup
  slots : List.Forall₂ (Slot start) fields slots
  determined : ∀ first second : R, (∀ {B : Type} {name : String} {place : Nat} {reader : Reader B} {get : R → B},
    IsField fields name place reader get → get first = get second) → first = second

/-- The parts that two nodes present to the fields are the same, a default counting as none. -/
def Agree (slots : List (String × String)) (left right : Nat → String → Option (List Char)) : Prop :=
  ∀ (place : Nat) (name default : String), slots[place]? = some (name,default) →
    (left place name).getD default.toList = (right place name).getD default.toList

def Node.part? (node : Node) (place : Nat) (name : String) : Option (List Char) :=
  (node.field? name place).map Node.print

namespace Lenient
variable {slots : List (String × String)} (lenient : Lenient fields start slots)
include lenient

theorem slot {place : Nat} {field : RecordField R} (here : fields[place]? = some field) :
    ∃ slot, slots[place]? = some slot ∧ Slot start field slot := by
  have related := lenient.slots
  clear lenient
  induction related generalizing place with
  | nil => contradiction
  | cons first _ ih =>
    cases place with
    | zero =>
      cases here
      exact ⟨_,rfl,first⟩
    | succ place => exact ih here

theorem slot_of_mem {field : RecordField R} (member : field ∈ fields) : ∃ slot, Slot start field slot := by
  obtain ⟨place,here⟩ := List.mem_iff_getElem?.mp member
  obtain ⟨slot,_,known⟩ := lenient.slot here
  exact ⟨slot,known⟩

theorem whole : ∀ field ∈ fields, field.read.Whole := by
  intro field member
  obtain ⟨slot,known⟩ := lenient.slot_of_mem member
  exact known.whole

theorem defaulted : ∀ field ∈ fields, field.presence = .defaulted := by
  intro field member
  obtain ⟨slot,known⟩ := lenient.slot_of_mem member
  exact known.defaulted

theorem exists_record_iff {node : Node} (presents : Presents fields node) :
    (∃ result, Reader.record fields start (room + 1) node = .ok result) ↔ Reads fields room node := by
  cases presents with
  | object holds once =>
    rw [Reader.exists_record_of_holds lenient.distinct lenient.defaulted holds,and_iff_right once]
  | array closed items short =>
    rw [Reader.exists_record_of_items lenient.defaulted closed items,and_iff_right short]

theorem presents_of_record {node : Node} {result : R} (read : Reader.record fields start (room + 1) node = .ok result) :
    Presents fields node := by
  have closed := Reader.Whole.record lenient.whole start _ _ _ read
  have ofHolds {entries} (holds : node.Holds entries) : Presents fields node :=
    .object holds ((Reader.exists_record_of_holds lenient.distinct lenient.defaulted holds).mp ⟨result,read⟩).1
  have ofItems {nodes} (items : node.items? = some nodes) : Presents fields node :=
    .array closed items ((Reader.exists_record_of_items lenient.defaulted closed items).mp ⟨result,read⟩).1
  cases node with
  | emptyObject inside => exact ofHolds (.empty inside)
  | object members =>
    obtain ⟨state,inner,_⟩ := bind_eq_ok_iff.mp read
    obtain ⟨entries,holds⟩ := Members.exists_holds lenient.whole inner
    exact ofHolds (.members holds)
  | emptyArray inside => exact ofItems rfl
  | array items => exact ofItems rfl
  | _ => contradiction

/-- What a field is read from is the same part in both, or else in both its default. -/
theorem exists_common {left right : Node} (leftClosed : left.isClosed) (rightClosed : right.isClosed)
    (agree : Agree slots left.part? right.part?) {place : Nat} {field : RecordField R} (here : fields[place]? = some field) :
    ∃ default : Node, (left.field? field.name place).getD default = (right.field? field.name place).getD default ∧
      ∀ room, ∃ change, field.read (room + 1) default = .ok change ∧ change start = start := by
  obtain ⟨⟨name,text⟩,there,known⟩ := lenient.slot here
  obtain ⟨default,closed,printed,reads⟩ := known.default
  have named : field.name = name := known.name
  have same := agree place name text there
  have printedPart (node : Node) :
      (node.part? place name).getD text.toList = ((node.field? field.name place).getD default).print := by
    rw [Node.part?,← printed,named,Option.getD_map]
  have wholePart {node : Node} (whole : node.isClosed) : ((node.field? field.name place).getD default).isClosed := by
    cases found : node.field? field.name place with
    | none => exact closed
    | some part => exact node.isClosed_of_field? whole found
  rw [printedPart,printedPart] at same
  exact ⟨default,Node.eq_of_print (wholePart leftClosed) (wholePart rightClosed) same,reads⟩

theorem record_of_agree {left right : Node} (presents : Presents fields right) (agree : Agree slots left.part? right.part?)
    {result : R} (read : Reader.record fields start (room + 2) left = .ok result) :
    Reader.record fields start (room + 2) right = .ok result := by
  have leftPresents := lenient.presents_of_record read
  have common {place : Nat} {field : RecordField R} (here : fields[place]? = some field) :=
    lenient.exists_common leftPresents.isClosed presents.isClosed agree here
  have reads := (lenient.exists_record_iff leftPresents).mp ⟨result,read⟩
  obtain ⟨other,found⟩ : ∃ other, Reader.record fields start (room + 2) right = .ok other := by
    refine (lenient.exists_record_iff presents).mpr fun place field here part present => ?_
    obtain ⟨default,same,defaults⟩ := common here
    rw [present,Option.getD_some] at same
    cases own : left.field? field.name place with
    | some part =>
      rw [own,Option.getD_some] at same
      exact same ▸ reads place field here _ own
    | none =>
      obtain ⟨change,fine,_⟩ := defaults room
      rw [own,Option.getD_none] at same
      exact same ▸ ⟨change,fine⟩
  have same : other = result := by
    refine lenient.determined other result fun {B name place reader get} known => ?_
    obtain ⟨field,here,rfl,sets⟩ := known.own
    obtain ⟨default,same,defaults⟩ := common here
    obtain ⟨change,fine,nothing⟩ := defaults room
    obtain ⟨value,plain,shows⟩ := sets _ _ _ fine
    have plain : reader (room + 1) default = .ok (get start) := by rw [plain,← shows start,nothing]
    have gives {node : Node} {result : R} (read : Reader.record fields start (room + 2) node = .ok result) :
        reader (room + 1) ((node.field? field.name place).getD default) = .ok (get result) := by
      obtain ⟨_,⟨⟩,gave⟩ := Reader.of_record known read
      cases part : node.field? field.name place with
      | none =>
        rw [part] at gave
        exact plain.trans (congrArg _ gave.symm)
      | some part' => rwa [part] at gave
    have first := gives found
    rw [← same,gives read] at first
    exact (Except.ok.inj first).symm
  rw [found,same]

end Lenient
end Jmap.Json
