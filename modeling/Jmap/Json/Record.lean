import Jmap.Json.Reader

/-! Records read from an object of named fields, or from an array of the same
fields in their order. Unknown members of an object are skipped. -/
namespace Jmap.Json

/-- What happens where a field is absent: `required` is refused, the others keep
the value the record starts with. An array may end early only before fields
that are `defaulted`. -/
inductive Presence where
  | required | optional | defaulted
  deriving DecidableEq

/-- Reading a field gives the change it makes to the record. -/
structure RecordField (R : Type) where
  name : String
  presence : Presence
  read : Reader (R → R)

def RecordField.of {R A : Type} (name : String) (presence : Presence) (reader : Reader A)
    (set : A → R → R) : RecordField R :=
  ⟨name,presence,reader.map set⟩

/-- A record in the making: the names already met and the record so far. -/
structure Progress (R : Type) where
  seen : List String
  record : R

variable {R : Type}

/-- A repeated field is refused before its value is read. -/
def readField (fields : List (RecordField R)) (room : Nat) (label : Label) (value : Node)
    (state : Progress R) : Except Defect (Progress R) :=
  match label.key.text? with
  | none => throw .malformed
  | some key =>
    match fields.find? (·.name == key) with
    | none => if value.isClosed then return state else throw .malformed
    | some field =>
      if state.seen.contains key then throw (.duplicateField key)
      else do
        let change ← field.read room value
        return ⟨key :: state.seen,change state.record⟩

def Members.readFields (fields : List (RecordField R)) (room : Nat) (state : Progress R) :
    Members → Except Defect (Progress R)
  | .last label value _ => readField fields room label value state
  | .more label value _ rest => do
    let next ← readField fields room label value state
    rest.readFields fields room next
  | .cut label value => do
    let _ ← readField fields room label value state
    throw .malformed
  | .stop => throw .malformed

/-- The first required field that is missing is named. -/
def finish (fields : List (RecordField R)) (state : Progress R) : Except Defect R :=
  match fields.find? (fun field => field.presence == .required && !state.seen.contains field.name) with
  | some field => throw (.missingField field.name)
  | none => return state.record

def Items.readFields (room : Nat) : List (RecordField R) → R → Items → Except Defect R
  | [],_,_ => throw .malformed
  | field :: rest,record,.last _ item _ => do
    let change ← field.read room item
    if rest.all (·.presence == .defaulted) then return change record else throw .malformed
  | field :: rest,record,.more _ item _ items => do
    let change ← field.read room item
    Items.readFields room rest (change record) items
  | field :: _,_,.cut _ item => do
    let _ ← field.read room item
    throw .malformed

/-- `start` holds the values of absent fields. -/
def Reader.record (fields : List (RecordField R)) (start : R) : Reader R
  | 0,_ => throw .malformed
  | _ + 1,.emptyObject _ => finish fields ⟨[],start⟩
  | room + 1,.object members => do
    let state ← members.readFields fields room ⟨[],start⟩
    finish fields state
  | _ + 1,.emptyArray _ =>
    if fields.all (·.presence == .defaulted) then return start else throw .malformed
  | room + 1,.array items => items.readFields room fields start
  | _ + 1,_ => throw .malformed

end Jmap.Json
