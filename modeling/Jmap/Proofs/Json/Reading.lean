import Jmap.Json.Record
import Jmap.Proofs.Outcome
import Jmap.Proofs.SortedMap

/-! What a reader was given when it succeeded: a tree that breaks off nowhere, whose
items, or whose members under the keys of a map or the names of a record, are what was read. -/
namespace Jmap.Json
open Outcome

variable {A B R : Type}

def Node.items? : Node → Option (List Node)
  | .emptyArray _ => some []
  | .array items => some items.toList
  | _ => none

def Members.find? (name : String) : Members → Option Node
  | .last label value _ => if label.key.text? = some name then some value else none
  | .more label value _ rest => if label.key.text? = some name then some value else rest.find? name
  | .cut _ _ => none
  | .stop => none

def Members.last? (key : String) : Members → Option Node
  | .last label value _ => if label.key.text? = some key then some value else none
  | .more label value _ rest =>
    (rest.last? key).or (if label.key.text? = some key then some value else none)
  | .cut _ _ => none
  | .stop => none

/-- The entry of a map that counts where a key is repeated. -/
def Node.entry? (key : String) : Node → Option Node
  | .object members => members.last? key
  | _ => none

/-- The part of a record that goes by a name in an object and has a place in an array. -/
def Node.field? (name : String) (place : Nat) : Node → Option Node
  | .object members => members.find? name
  | .array items => items.toList[place]?
  | _ => none

namespace Reader

/-- What breaks off is not read. -/
def Whole (reader : Reader A) : Prop := ∀ room node value, reader room node = .ok value → node.isClosed

theorem Whole.text : Whole Reader.text := by
  intro room node value read
  cases node <;> first | rfl | contradiction

theorem Whole.raw : Whole Reader.raw := by
  intro room node value read
  unfold Reader.raw at read
  split at read
  · assumption
  · contradiction

theorem Whole.map {reader : Reader A} (whole : reader.Whole) (f : A → B) : (reader.map f).Whole := by
  intro room node value read
  obtain ⟨_,inner,_⟩ := map_eq_ok_iff.mp read
  exact whole room node _ inner

theorem Whole.andThen {reader : Reader A} (whole : reader.Whole) (next : A → Except Defect B) :
    (reader.andThen next).Whole := by
  intro room node value read
  obtain ⟨_,inner,_⟩ := bind_eq_ok_iff.mp read
  exact whole room node _ inner

theorem Whole.nullable {reader : Reader A} (whole : reader.Whole) : reader.nullable.Whole := by
  intro room node value read
  unfold Reader.nullable at read
  split at read
  · rfl
  · obtain ⟨_,inner,_⟩ := map_eq_ok_iff.mp read
    exact whole room node _ inner

theorem ofOption_eq_ok_iff {result : Option A} {value : A} : ofOption result = .ok value ↔ result = some value := by
  cases result <;> simp [ofOption]

/-- Whatever is wrong with what is read, the defect is the same. -/
def Uniform (reader : Reader A) : Prop := ∀ room node defect, reader room node = .error defect → defect = .malformed

theorem Uniform.text : Uniform Reader.text := by
  intro room node defect failed
  unfold Reader.text at failed
  split at failed
  next literal => cases meaning : literal.text? <;> simp_all [ofOption]
  next => cases failed; rfl

theorem Uniform.value : Uniform Reader.value := by
  intro room node defect failed
  unfold Reader.value Reader.ofOption at failed
  split at failed
  · contradiction
  · cases failed
    rfl

theorem Uniform.raw : Uniform Reader.raw := by
  intro room node defect failed
  unfold Reader.raw at failed
  split at failed
  · contradiction
  · cases failed
    rfl

end Reader

theorem Items.uniform_read {reader : Reader A} (uniform : reader.Uniform) {room : Nat} {defect : Defect} :
    ∀ {items : Items}, items.read reader room = .error defect → defect = .malformed
  | .last before item after,failed => by
    rcases bind_eq_error_iff.mp failed with first | ⟨_,_,impossible⟩
    · exact uniform room item defect first
    · contradiction
  | .more before item after rest,failed => by
    rcases bind_eq_error_iff.mp failed with first | ⟨_,_,following⟩
    · exact uniform room item defect first
    · rcases bind_eq_error_iff.mp following with later | ⟨_,_,impossible⟩
      · exact Items.uniform_read uniform later
      · contradiction
  | .cut before item,failed => by
    rcases bind_eq_error_iff.mp failed with first | ⟨_,_,same⟩
    · exact uniform room item defect first
    · cases same
      rfl

namespace Reader

theorem Uniform.list {reader : Reader A} (uniform : reader.Uniform) : reader.list.Uniform := by
  intro room node defect failed
  unfold Reader.list at failed
  split at failed
  · cases failed
    rfl
  · contradiction
  · exact Items.uniform_read uniform failed
  · cases failed
    rfl

theorem Uniform.ofText {reader : Reader A} (uniform : reader.Uniform) {text : String} {defect : Defect}
    (failed : reader.ofText text = .error defect) : defect = .malformed := by
  rcases bind_eq_error_iff.mp failed with unread | ⟨_,_,trails⟩
  · exact uniform _ _ defect unread
  · split at trails
    · contradiction
    · cases trails
      rfl

end Reader

theorem Items.of_read {reader : Reader A} {room : Nat} :
    ∀ {items : Items} {values : List A}, items.read reader room = .ok values →
      List.Forall₂ (fun node value => reader room node = .ok value) items.toList values ∧
        (reader.Whole → items.isClosed)
  | .last before item after,values,read => by
    obtain ⟨value,first,same⟩ := bind_eq_ok_iff.mp read
    cases same
    exact ⟨.cons first .nil,fun whole => whole room item value first⟩
  | .more before item after rest,values,read => by
    obtain ⟨value,first,following⟩ := bind_eq_ok_iff.mp read
    obtain ⟨others,remaining,same⟩ := bind_eq_ok_iff.mp following
    cases same
    obtain ⟨related,closed⟩ := Items.of_read remaining
    refine ⟨.cons first related,fun whole => ?_⟩
    simp only [Items.isClosed,Bool.and_eq_true]
    exact ⟨whole room item value first,closed whole⟩
  | .cut before item,values,read => by
    obtain ⟨_,_,impossible⟩ := bind_eq_ok_iff.mp read
    contradiction

theorem of_readMember {check : String → Except Defect Unit} {reader : Reader A} {room : Nat} {label : Label}
    {value : Node} {entry : String × A} (read : readMember check reader room label value = .ok entry) :
    label.key.text? = some entry.1 ∧ check entry.1 = .ok () ∧ reader room value = .ok entry.2 := by
  unfold readMember at read
  split at read
  · contradiction
  next key text =>
    obtain ⟨⟨⟩,checked,following⟩ := bind_eq_ok_iff.mp read
    obtain ⟨result,inner,same⟩ := bind_eq_ok_iff.mp following
    cases same
    exact ⟨text,checked,inner⟩

theorem isClosed_of_readMember {check : String → Except Defect Unit} {reader : Reader A} (whole : reader.Whole)
    {room : Nat} {label : Label} {value : Node} {entry : String × A}
    (read : readMember check reader room label value = .ok entry) : value.isClosed :=
  whole room value entry.2 (of_readMember read).2.2

theorem Members.of_read {check : String → Except Defect Unit} {reader : Reader A} {room : Nat} :
    ∀ {members : Members} {entries : List (String × A)}, members.read check reader room = .ok entries →
      ∀ key, match members.last? key with
        | none => entries.reverse.lookup key = none
        | some part => check key = .ok () ∧
          ∃ value, entries.reverse.lookup key = some value ∧ reader room part = .ok value
  | .last label value after,entries,read,key => by
    obtain ⟨entry,first,same⟩ := bind_eq_ok_iff.mp read
    cases same
    obtain ⟨text,checked,inner⟩ := of_readMember first
    rw [List.reverse_singleton,SortedMap.lookup_entry,Members.last?,text]
    by_cases own : key = entry.1
    · subst own
      simpa using ⟨checked,inner⟩
    · simp [own,Ne.symm own]
  | .more label value after rest,entries,read,key => by
    obtain ⟨entry,first,following⟩ := bind_eq_ok_iff.mp read
    obtain ⟨others,remaining,same⟩ := bind_eq_ok_iff.mp following
    cases same
    obtain ⟨text,checked,inner⟩ := of_readMember first
    have found := Members.of_read remaining key
    rw [List.reverse_cons,List.lookup_append,SortedMap.lookup_entry,Members.last?,text]
    cases part : rest.last? key with
    | some part' =>
      rw [part] at found
      obtain ⟨fine,result,held,inside⟩ := found
      exact ⟨fine,result,by rw [held,Option.some_or],inside⟩
    | none =>
      rw [part] at found
      rw [found]
      by_cases own : key = entry.1
      · subst own
        simpa using ⟨checked,inner⟩
      · simp [own,Ne.symm own]
  | .cut label value,entries,read,_ => by
    obtain ⟨_,_,impossible⟩ := bind_eq_ok_iff.mp read
    contradiction
  | .stop,entries,read,_ => by contradiction

theorem Members.isClosed_of_read {check : String → Except Defect Unit} {reader : Reader A} {room : Nat}
    (whole : reader.Whole) :
    ∀ {members : Members} {entries : List (String × A)}, members.read check reader room = .ok entries → members.isClosed
  | .last label value after,entries,read => by
    obtain ⟨entry,first,_⟩ := bind_eq_ok_iff.mp read
    exact isClosed_of_readMember whole first
  | .more label value after rest,entries,read => by
    obtain ⟨entry,first,following⟩ := bind_eq_ok_iff.mp read
    obtain ⟨others,remaining,_⟩ := bind_eq_ok_iff.mp following
    simp only [Members.isClosed,Bool.and_eq_true]
    exact ⟨isClosed_of_readMember whole first,Members.isClosed_of_read whole remaining⟩
  | .cut label value,entries,read => by
    obtain ⟨_,_,impossible⟩ := bind_eq_ok_iff.mp read
    contradiction
  | .stop,entries,read => by contradiction

namespace Reader

theorem ofText_eq_ok_iff {reader : Reader A} {text : String} {value : A} : reader.ofText text = .ok value ↔
    reader maxDepth (Document.ofText text).root = .ok value ∧ (Document.ofText text).trailing = [] := by
  constructor
  · intro read
    obtain ⟨result,inner,finished⟩ := bind_eq_ok_iff.mp read
    split at finished
    next ends =>
      cases finished
      exact ⟨inner,List.isEmpty_iff.mp ends⟩
    next => contradiction
  · rintro ⟨inner,ends⟩
    refine bind_eq_ok_iff.mpr ⟨value,inner,?_⟩
    rw [ends]
    rfl

theorem root_of_ofText {reader : Reader A} {text : String} {value : A} (read : reader.ofText text = .ok value) :
    reader maxDepth (Document.ofText text).root = .ok value := (ofText_eq_ok_iff.mp read).1

theorem of_nullable {reader : Reader A} {room : Nat} {node : Node} {value : A}
    (read : reader.nullable room node = .ok (some value)) : reader room node = .ok value := by
  unfold nullable at read
  split at read
  · simp at read
  · obtain ⟨_,inner,⟨⟩⟩ := map_eq_ok_iff.mp read
    exact inner

theorem of_list {reader : Reader A} {room : Nat} {node : Node} {values : List A}
    (read : reader.list room node = .ok values) :
    ∃ nodes inner, room = inner + 1 ∧ node.items? = some nodes ∧
      List.Forall₂ (fun node value => reader inner node = .ok value) nodes values := by
  unfold list at read
  split at read
  · contradiction
  · cases read
    exact ⟨[],_,rfl,rfl,.nil⟩
  · exact ⟨_,_,rfl,rfl,(Items.of_read read).1⟩
  · contradiction

/-- A map holds what was read from the entries that count, and nothing else. -/
theorem of_checkedMap {check : String → Except Defect Unit} {reader : Reader A} {room : Nat} {node : Node}
    {map : SortedMap A} (read : reader.checkedMap check room node = .ok map) :
    ∃ inner, room = inner + 1 ∧ ∀ key, match node.entry? key with
      | none => map.find? key = none
      | some part => check key = .ok () ∧ ∃ value, map.find? key = some value ∧ reader inner part = .ok value := by
  unfold checkedMap at read
  split at read
  · contradiction
  · cases read
    exact ⟨_,rfl,fun _ => rfl⟩
  next inner members =>
    obtain ⟨entries,listed,rfl⟩ := map_eq_ok_iff.mp read
    refine ⟨inner,rfl,fun key => ?_⟩
    simp only [SortedMap.find?_ofList_last]
    exact Members.of_read listed key
  · contradiction

theorem Whole.list {reader : Reader A} (whole : reader.Whole) : reader.list.Whole := by
  intro room node values read
  unfold Reader.list at read
  split at read
  · contradiction
  · rfl
  · exact (Items.of_read read).2 whole
  · contradiction

theorem Whole.checkedMap {reader : Reader A} (whole : reader.Whole) (check : String → Except Defect Unit) :
    (reader.checkedMap check).Whole := by
  intro room node map read
  unfold Reader.checkedMap at read
  split at read
  · contradiction
  · rfl
  · obtain ⟨_,inner,_⟩ := map_eq_ok_iff.mp read
    exact Members.isClosed_of_read whole inner
  · contradiction

end Reader

/-- Among the fields of a record, the one with this name and place is read by
`reader`, and it alone sets what `get` shows of the record. -/
structure IsField (fields : List (RecordField R)) (name : String) (place : Nat) (reader : Reader B) (get : R → B) :
    Prop where
  own : ∃ field, fields[place]? = some field ∧ field.name = name ∧ ∀ room node change,
    field.read room node = .ok change → ∃ value, reader room node = .ok value ∧ ∀ record, get (change record) = value
  others : ∀ i field, fields[i]? = some field → i ≠ place → field.name ≠ name ∧ ∀ room node change,
    field.read room node = .ok change → ∀ record, get (change record) = get record

section
variable {name : String} {presence : Presence} {reader : Reader A} {set : A → R → R} {room : Nat} {node : Node} {change : R → R}

theorem RecordField.sets_of {get : R → A} (sets : ∀ value record, get (set value record) = value)
    (read : (RecordField.of name presence reader set).read room node = .ok change) :
    ∃ value, reader room node = .ok value ∧ ∀ record, get (change record) = value := by
  obtain ⟨value,inner,rfl⟩ := map_eq_ok_iff.mp read
  exact ⟨value,inner,sets value⟩

theorem RecordField.keeps_of {get : R → B} (keeps : ∀ value record, get (set value record) = get record)
    (read : (RecordField.of name presence reader set).read room node = .ok change) (record : R) :
    get (change record) = get record := by
  obtain ⟨value,_,rfl⟩ := map_eq_ok_iff.mp read
  exact keeps value record

theorem IsField.at {fields : List (RecordField R)} {place : Nat} {get : R → A}
    (here : fields[place]? = some (.of name presence reader set)) (sets : ∀ value record, get (set value record) = value)
    (distinct : (fields.map (·.name)).Nodup) (keeps : ∀ field ∈ fields.eraseIdx place, ∀ room node change,
      field.read room node = .ok change → ∀ record, get (change record) = get record) :
    IsField fields name place reader get where
  own := ⟨_,here,rfl,fun _ _ _ => RecordField.sets_of sets⟩
  others i field located different := by
    refine ⟨fun same => different ?_,keeps field (List.mem_eraseIdx_iff_getElem?.mpr ⟨i,different,located⟩)⟩
    have inside : i < (fields.map (·.name)).length := by
      rw [List.length_map]
      exact (List.getElem?_eq_some_iff.mp located).1
    refine (List.getElem?_inj inside distinct).mp ?_
    rw [List.getElem?_map,List.getElem?_map,located,here]
    exact congrArg some same

end

section
variable {fields : List (RecordField R)} {name : String} {place : Nat} {reader : Reader B} {get : R → B} {room : Nat}

theorem IsField.of_mem (known : IsField fields name place reader get) {field : RecordField R} (member : field ∈ fields)
    {node : Node} {change : R → R} (read : field.read room node = .ok change) :
    (field.name = name ∧ ∃ value, reader room node = .ok value ∧ ∀ record, get (change record) = value) ∨
      (field.name ≠ name ∧ ∀ record, get (change record) = get record) := by
  obtain ⟨i,located⟩ := List.mem_iff_getElem?.mp member
  by_cases same : i = place
  · subst same
    obtain ⟨own,here,named,sets⟩ := known.own
    cases Option.some.inj (here.symm.trans located)
    exact .inl ⟨named,sets room node change read⟩
  · obtain ⟨different,keeps⟩ := known.others i field located same
    exact .inr ⟨different,keeps room node change read⟩

/-- One member either is the field, met for the first time, or leaves it alone. -/
theorem IsField.of_readField (known : IsField fields name place reader get) {label : Label} {value : Node}
    {state next : Progress R} (read : readField fields room label value state = .ok next) :
    (label.key.text? = some name ∧ name ∉ state.seen ∧ name ∈ next.seen ∧
        reader room value = .ok (get next.record)) ∨
      (label.key.text? ≠ some name ∧ (name ∈ next.seen ↔ name ∈ state.seen) ∧
        get next.record = get state.record) := by
  unfold readField at read
  split at read
  · contradiction
  next key text =>
    rw [text]
    split at read
    next absent =>
      split at read
      · cases read
        obtain ⟨own,here,named,_⟩ := known.own
        have present : own ∈ fields := List.mem_of_getElem? here
        have different : key ≠ name := by
          rintro rfl
          simpa [named] using List.find?_eq_none.mp absent own present
        exact .inr ⟨by simpa using different,Iff.rfl,rfl⟩
      · contradiction
    next field found =>
      have named : field.name = key := by simpa using List.find?_some found
      split at read
      · contradiction
      next fresh =>
        obtain ⟨change,inner,same⟩ := bind_eq_ok_iff.mp read
        cases same
        have unseen : key ∉ state.seen := by simpa using fresh
        rcases known.of_mem (List.mem_of_find?_eq_some found) inner with ⟨own,result,part,sets⟩ | ⟨other,keeps⟩
        · have same : key = name := named.symm.trans own
          exact .inl ⟨by rw [same],same ▸ unseen,by simp [same],by rw [part,sets]⟩
        · have different : key ≠ name := named ▸ other
          exact .inr ⟨by simpa using different,by simp [Ne.symm different],keeps _⟩

theorem Members.of_readFields (known : IsField fields name place reader get) :
    ∀ {members : Members} {state result : Progress R}, members.readFields fields room state = .ok result →
      (name ∈ state.seen → get result.record = get state.record) ∧
      (name ∉ state.seen → match members.find? name with
        | none => get result.record = get state.record
        | some part => reader room part = .ok (get result.record))
  | .last label value after,state,result,read => by
    rcases known.of_readField read with ⟨text,fresh,_,part⟩ | ⟨different,_,kept⟩
    · exact ⟨fun seen => absurd seen fresh,fun _ => by rw [Members.find?,if_pos text]; exact part⟩
    · exact ⟨fun _ => kept,fun _ => by rw [Members.find?,if_neg different]; exact kept⟩
  | .more label value after rest,state,result,read => by
    obtain ⟨next,first,following⟩ := bind_eq_ok_iff.mp read
    obtain ⟨seenCase,freshCase⟩ := Members.of_readFields known following
    rcases known.of_readField first with ⟨text,fresh,seen,part⟩ | ⟨different,same,kept⟩
    · refine ⟨fun seen => absurd seen fresh,fun _ => ?_⟩
      rw [Members.find?,if_pos text]
      exact part.trans (congrArg _ (seenCase seen).symm)
    · rw [same,kept] at seenCase freshCase
      refine ⟨seenCase,fun fresh => ?_⟩
      rw [Members.find?,if_neg different]
      exact freshCase fresh
  | .cut label value,state,result,read => by
    obtain ⟨_,_,impossible⟩ := bind_eq_ok_iff.mp read
    contradiction
  | .stop,state,result,read => by contradiction

theorem Items.get_of_readFields {fields : List (RecordField R)}
    (keeps : ∀ field ∈ fields, ∀ room node change, field.read room node = .ok change →
      ∀ record, get (change record) = get record) :
    ∀ {items : Items} {record result : R}, items.readFields room fields record = .ok result →
      get result = get record := by
  intro items
  induction fields generalizing items with
  | nil => intro record result read; contradiction
  | cons field rest ih =>
    intro record result read
    have restKeeps := fun other member => keeps other (List.mem_cons_of_mem field member)
    cases items with
    | last before item after =>
      obtain ⟨change,inner,following⟩ := bind_eq_ok_iff.mp read
      split at following
      · cases following
        exact keeps field (by simp) room item change inner record
      · contradiction
    | more before item after items =>
      obtain ⟨change,inner,following⟩ := bind_eq_ok_iff.mp read
      rw [ih restKeeps following,keeps field (by simp) room item change inner]
    | cut before item =>
      obtain ⟨_,_,impossible⟩ := bind_eq_ok_iff.mp read
      contradiction

theorem Items.of_readFields (known : IsField fields name place reader get) :
    ∀ {items : Items} {record result : R}, items.readFields room fields record = .ok result →
      match items.toList[place]? with
      | none => get result = get record
      | some part => reader room part = .ok (get result) := by
  induction fields generalizing place with
  | nil =>
    obtain ⟨_,here,_⟩ := known.own
    contradiction
  | cons field rest ih =>
    intro items record result read
    cases place with
    | zero =>
      obtain ⟨own,here,_,sets⟩ := known.own
      cases Option.some.inj here
      have keeps : ∀ other ∈ rest, ∀ room node change, other.read room node = .ok change →
          ∀ record, get (change record) = get record := by
        intro other member
        obtain ⟨i,located⟩ := List.mem_iff_getElem?.mp member
        exact (known.others (i + 1) other located (by omega)).2
      cases items with
      | last before item after =>
        obtain ⟨change,inner,following⟩ := bind_eq_ok_iff.mp read
        split at following
        · cases following
          obtain ⟨value,part,set⟩ := sets room item change inner
          exact part.trans (congrArg _ (set record).symm)
        · contradiction
      | more before item after items =>
        obtain ⟨change,inner,following⟩ := bind_eq_ok_iff.mp read
        obtain ⟨value,part,set⟩ := sets room item change inner
        exact part.trans (congrArg _ (by rw [Items.get_of_readFields keeps following,set]))
      | cut before item =>
        obtain ⟨_,_,impossible⟩ := bind_eq_ok_iff.mp read
        contradiction
    | succ place =>
      have kept := (known.others 0 field rfl (by omega)).2
      have tail : IsField rest name place reader get :=
        ⟨known.own,fun i other located different => known.others (i + 1) other located (by omega)⟩
      cases items with
      | last before item after =>
        obtain ⟨change,inner,following⟩ := bind_eq_ok_iff.mp read
        split at following
        · cases following
          exact kept room item change inner record
        · contradiction
      | more before item after items =>
        obtain ⟨change,inner,following⟩ := bind_eq_ok_iff.mp read
        have found := ih tail following
        rw [kept room item change inner record] at found
        exact found
      | cut before item =>
        obtain ⟨_,_,impossible⟩ := bind_eq_ok_iff.mp read
        contradiction

theorem get_of_finish {state : Progress R} {result : R} (finished : finish fields state = .ok result) :
    result = state.record := by
  unfold finish at finished
  split at finished
  · contradiction
  · cases finished
    rfl

/-- What became of a part that may be absent. -/
def Reader.Gives (reader : Reader A) (room : Nat) (absent : A) : Option Node → A → Prop
  | none,value => value = absent
  | some node,value => reader room node = .ok value

/-- What a record shows of a field was read from the part of that name or place, and
is what it was from the start if there is none. -/
theorem Reader.of_record (known : IsField fields name place reader get) {start result : R} {node : Node}
    (read : Reader.record fields start room node = .ok result) :
    ∃ inner, room = inner + 1 ∧ reader.Gives inner (get start) (node.field? name place) (get result) := by
  unfold Reader.record at read
  split at read
  · contradiction
  · rw [get_of_finish read]
    exact ⟨_,rfl,rfl⟩
  next room members =>
    obtain ⟨state,inner,finished⟩ := bind_eq_ok_iff.mp read
    have found := (Members.of_readFields known inner).2 (by simp)
    rw [get_of_finish finished,Node.field?]
    refine ⟨room,rfl,?_⟩
    cases part : members.find? name <;> rwa [part] at found
  · split at read
    · cases read
      exact ⟨_,rfl,rfl⟩
    · contradiction
  next room items =>
    have found := Items.of_readFields known read
    rw [Node.field?]
    refine ⟨room,rfl,?_⟩
    cases part : items.toList[place]? <;> rwa [part] at found
  · contradiction

/-- A map that may be absent has under each key what the entry that counts was read as. -/
theorem Reader.Gives.entries {check : String → Except Defect Unit} {reader : Reader A} {part : Option Node}
    {map : SortedMap A} (gave : (reader.checkedMap check).Gives (room + 1) .empty part map) (key : String) :
    match part.bind (Node.entry? key) with
    | none => map.find? key = none
    | some node => check key = .ok () ∧ ∃ value, map.find? key = some value ∧ reader room node = .ok value := by
  cases part with
  | none =>
    cases gave
    rfl
  | some node =>
    obtain ⟨_,⟨⟩,found⟩ := Reader.of_checkedMap gave
    exact found key

theorem Reader.Gives.of_mem {check : String → Except Defect Unit} {reader : Reader A} {part : Option Node}
    {map : SortedMap A} (gave : (reader.checkedMap check).Gives (room + 1) .empty part map) {entry : String × A}
    (member : entry ∈ map.entries) : check entry.1 = .ok () ∧
      ∃ node, part.bind (Node.entry? entry.1) = some node ∧ reader room node = .ok entry.2 := by
  have held := SortedMap.find?_of_mem member
  have source := gave.entries entry.1
  cases found : part.bind (Node.entry? entry.1) with
  | none =>
    rw [found] at source
    simp [held] at source
  | some node =>
    rw [found] at source
    obtain ⟨checked,value,same,read⟩ := source
    cases Option.some.inj (held.symm.trans same)
    exact ⟨checked,node,rfl,read⟩

theorem isClosed_of_readField (whole : ∀ field ∈ fields, field.read.Whole) {label : Label} {value : Node}
    {state next : Progress R} (read : readField fields room label value state = .ok next) : value.isClosed := by
  unfold readField at read
  split at read
  · contradiction
  · split at read
    · split at read
      · assumption
      · contradiction
    next field found =>
      split at read
      · contradiction
      · obtain ⟨change,inner,_⟩ := bind_eq_ok_iff.mp read
        exact whole field (List.mem_of_find?_eq_some found) room value change inner

theorem Members.isClosed_of_readFields (whole : ∀ field ∈ fields, field.read.Whole) :
    ∀ {members : Members} {state result : Progress R}, members.readFields fields room state = .ok result →
      members.isClosed
  | .last label value after,state,result,read => by
    have last : readField fields room label value state = .ok result := read
    exact isClosed_of_readField whole last
  | .more label value after rest,state,result,read => by
    obtain ⟨next,first,following⟩ := bind_eq_ok_iff.mp read
    simp only [Members.isClosed,Bool.and_eq_true]
    exact ⟨isClosed_of_readField whole first,Members.isClosed_of_readFields whole following⟩
  | .cut label value,state,result,read => by
    obtain ⟨_,_,impossible⟩ := bind_eq_ok_iff.mp read
    contradiction
  | .stop,state,result,read => by contradiction

theorem Items.isClosed_of_readFields (whole : ∀ field ∈ fields, field.read.Whole) :
    ∀ {items : Items} {record result : R}, items.readFields room fields record = .ok result → items.isClosed := by
  induction fields with
  | nil => intro items record result read; contradiction
  | cons field rest ih =>
    intro items record result read
    have first := whole field (by simp)
    cases items with
    | last before item after =>
      obtain ⟨change,inner,_⟩ := bind_eq_ok_iff.mp read
      exact first room item change inner
    | more before item after items =>
      obtain ⟨change,inner,following⟩ := bind_eq_ok_iff.mp read
      simp only [Items.isClosed,Bool.and_eq_true]
      exact ⟨first room item change inner,ih (fun other member => whole other (by simp [member])) following⟩
    | cut before item =>
      obtain ⟨_,_,impossible⟩ := bind_eq_ok_iff.mp read
      contradiction

theorem Reader.Whole.record (whole : ∀ field ∈ fields, field.read.Whole) (start : R) :
    (Reader.record fields start).Whole := by
  intro room node result read
  unfold Reader.record at read
  split at read
  · contradiction
  · rfl
  · obtain ⟨state,inner,_⟩ := bind_eq_ok_iff.mp read
    exact Members.isClosed_of_readFields whole inner
  · rfl
  · exact Items.isClosed_of_readFields whole read
  · contradiction

end

end Jmap.Json
