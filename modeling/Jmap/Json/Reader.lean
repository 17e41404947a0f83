import Jmap.Defect
import Jmap.Json.Raw

/-! Typed reading of trees from left to right; the first fault met is reported.
How deep arrays and objects may be nested is limited for what is read, not for
what is only kept or skipped. -/
namespace Jmap.Json

/-- The first argument is how many arrays and objects may still be nested. -/
abbrev Reader (A : Type) := Nat → Node → Except Defect A

def Items.read {A : Type} (reader : Reader A) (room : Nat) : Items → Except Defect (List A)
  | .last _ item _ => do return [← reader room item]
  | .more _ item _ rest => do
    let first ← reader room item
    return first :: (← rest.read reader room)
  | .cut _ item => do
    let _ ← reader room item
    throw .malformed

/-- A key and its value; the key is checked before the value is read. -/
def readMember {A : Type} (check : String → Except Defect Unit) (reader : Reader A) (room : Nat)
    (label : Label) (value : Node) : Except Defect (String × A) :=
  match label.key.text? with
  | none => throw .malformed
  | some key => do
    check key
    return (key,← reader room value)

def Members.read {A : Type} (check : String → Except Defect Unit) (reader : Reader A) (room : Nat) :
    Members → Except Defect (List (String × A))
  | .last label value _ => do return [← readMember check reader room label value]
  | .more label value _ rest => do
    let first ← readMember check reader room label value
    return first :: (← rest.read check reader room)
  | .cut label value => do
    let _ ← readMember check reader room label value
    throw .malformed
  | .stop => throw .malformed

namespace Reader
variable {A B : Type}

/-- The result is taken on, or refused, after the whole value has been read. -/
def andThen (reader : Reader A) (next : A → Except Defect B) : Reader B :=
  fun room node => reader room node >>= next

def map (f : A → B) (reader : Reader A) : Reader B := fun room node => f <$> reader room node

def ofOption (result : Option A) : Except Defect A :=
  match result with
  | some value => .ok value
  | none => .error .malformed

def value : Reader Value := fun room node => ofOption (node.value? room)

def raw : Reader Raw := fun _ node => if closed : node.isClosed then .ok ⟨node,closed⟩ else .error .malformed

def text : Reader String
  | _,.string literal => ofOption literal.text?
  | _,_ => .error .malformed

def bool : Reader Bool
  | _,.boolean value => .ok value
  | _,_ => .error .malformed

def integer (low high : Int) : Reader Int
  | _,.number literal =>
    match Number.ofLiteral? literal with
    | some (.integer n) => if low ≤ n ∧ n ≤ high then .ok n else .error .malformed
    | _ => .error .malformed
  | _,_ => .error .malformed

/-- Null stands for none. -/
def nullable (reader : Reader A) : Reader (Option A)
  | _,.null => .ok none
  | room,node => some <$> reader room node

def list (reader : Reader A) : Reader (List A)
  | 0,_ => .error .malformed
  | _ + 1,.emptyArray _ => .ok []
  | room + 1,.array items => items.read reader room
  | _ + 1,_ => .error .malformed

/-- The last entry of a key counts. -/
def checkedMap (check : String → Except Defect Unit) (reader : Reader A) : Reader (SortedMap A)
  | 0,_ => .error .malformed
  | _ + 1,.emptyObject _ => .ok .empty
  | room + 1,.object members => SortedMap.ofList <$> members.read check reader room
  | _ + 1,_ => .error .malformed

def sortedMap (reader : Reader A) : Reader (SortedMap A) := checkedMap (fun _ => .ok ()) reader

/-- Arrays and objects nested more deeply are not read. -/
def maxDepth : Nat := 127

def ofDocument (reader : Reader A) (document : Document) : Except Defect A := do
  let result ← reader maxDepth document.root
  if document.trailing.isEmpty then return result else throw .malformed

def ofText (reader : Reader A) (text : String) : Except Defect A := reader.ofDocument (.ofText text)

def ofRaw (reader : Reader A) (raw : Raw) : Except Defect A := reader maxDepth raw.node

def ofValue (reader : Reader A) (value : Value) : Except Defect A := reader maxDepth value.toNode

end Reader
end Jmap.Json
