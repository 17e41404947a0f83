import Jmap.Date
import Jmap.Error
import Jmap.Id
import Jmap.Integer
import Jmap.Pointer

/-! Values that a pointer walks without writing them as JSON first: leaves, JSON
values, maps, sequences, optional values and records. -/
namespace Jmap
open Json

inductive Leaf where
  | text (content : String)
  | bool (value : Bool)
  | integer (value : Int)
  /-- None stands for the floating-point values that are not finite. -/
  | double (value : Option Binary64)
  | signed (value : SignedInt)
  | unsigned (value : UnsignedInt)
  | id (value : Id)
  | date (value : Date)
  | utcDate (value : UtcDate)

namespace Leaf

/-- The value under a check that its type makes when it is written. -/
def checked {A : Type} [Writable A] (content : A) (value : Value) : Except Defect Value :=
  (fun _ => value) <$> encode content

def toValue : Leaf → Except Defect Value
  | .text content => .ok (.string content)
  | .bool value => .ok (.boolean value)
  | .integer value => .ok (.number (.integer value))
  | .double none => .ok .null
  | .double (some value) => .ok (.number (.double value))
  | .signed n => checked n (.number (.integer n.value))
  | .unsigned n => checked n (.number (.integer n.value))
  | .id value => checked value (.string value.text)
  | .date value => .ok (.string value.display)
  | .utcDate value => .ok (.string value.display)

end Leaf

/-- A field goes by its name on the wire and, where no field has that, by the
name it has in the record. -/
structure FieldName where
  wire : String
  own : String
  deriving DecidableEq

inductive Pointable where
  | leaf (content : Leaf)
  | json (value : Value)
  | map (entries : List (String × Pointable))
  | idMap (entries : List (Id × Pointable))
  | sequence (items : List Pointable)
  | absent
  | present (content : Pointable)
  | record (fields : List (FieldName × Pointable))

namespace Pointable

def item? {A : Type} (items : List A) (token : String) : Option A := do
  let index ← Pointer.index? token
  items[index]?

/-- The child that one token addresses. An optional value has the children of its content. -/
def child? (token : String) : Pointable → Option Pointable
  | .leaf _ => none
  | .json (.object members) => .json <$> members.lookup token
  | .json (.array items) => .json <$> item? items token
  | .json _ => none
  | .map entries => entries.lookup token
  | .idMap entries => entries.lookup ⟨token⟩
  | .sequence items => item? items token
  | .absent => none
  | .present content => content.child? token
  | .record fields =>
    ((fields.find? (·.1.wire == token)).or (fields.find? (·.1.own == token))).map (·.2)

mutual
/-- Keys are written as they are, identifiers too. -/
def toValue : Pointable → Except Defect Value
  | .leaf content => content.toValue
  | .json value => .ok value
  | .map entries => (fun entries => .ofMap (.ofList entries)) <$> toEntries entries
  | .idMap entries => (fun entries => .ofMap (.ofList entries)) <$> toIdEntries entries
  | .sequence items => .array <$> toItems items
  | .absent => .ok .null
  | .present content => content.toValue
  | .record fields => (fun entries => .ofMap (.ofList entries)) <$> toFields fields
def toEntries : List (String × Pointable) → Except Defect (List (String × Value))
  | [] => .ok []
  | (key,content) :: rest => do return (key,← content.toValue) :: (← toEntries rest)
def toIdEntries : List (Id × Pointable) → Except Defect (List (String × Value))
  | [] => .ok []
  | (key,content) :: rest => do return (key.text,← content.toValue) :: (← toIdEntries rest)
def toItems : List Pointable → Except Defect (List Value)
  | [] => .ok []
  | content :: rest => do return (← content.toValue) :: (← toItems rest)
def toFields : List (FieldName × Pointable) → Except Defect (List (String × Value))
  | [] => .ok []
  | (name,content) :: rest => do return (name.wire,← content.toValue) :: (← toFields rest)
end

def walk? (start : Pointable) (tokens : List String) : Option Pointable :=
  tokens.foldlM (fun place token => place.child? token) start

def resolve (start : Pointable) (pointer : Pointer) : Except Error Pointable :=
  match start.walk? pointer.tokens with
  | some place => .ok place
  | none => .error (.noPointerValue pointer.text)

def get (start : Pointable) (path : String) : Except Error Value := do
  let pointer ← (Pointer.parse path).mapError .invalid
  let place ← start.resolve pointer
  place.toValue.mapError .serialization

end Pointable

class ToPointable (A : Type) where
  toPointable : A → Pointable

export ToPointable (toPointable)

instance : ToPointable Value := ⟨.json⟩

end Jmap
