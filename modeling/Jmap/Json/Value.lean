import Jmap.Json.Node
import Jmap.Json.Number
import Jmap.SortedMap

/-! JSON values without their spelling. A tree is read into a value, and a value
has one compact tree. The keys of an object that was read are sorted, each once.

Left out are objects whose first key is the private token by which a reader marks
raw text, to read the text under it in their place: here they are objects as any
others. -/
namespace Jmap.Json

inductive Value where
  | null
  | boolean (value : Bool)
  | number (value : Number)
  | string (text : String)
  | array (items : List Value)
  | object (members : List (String × Value))

instance : Inhabited Value := ⟨.null⟩

mutual
/-- `room` is how many arrays and objects may still be nested. -/
def Node.value? (room : Nat) : Node → Option Value
  | .null => some .null
  | .boolean value => some (.boolean value)
  | .number literal => .number <$> Number.ofLiteral? literal
  | .string literal => .string <$> literal.text?
  | .emptyArray _ => if room = 0 then none else some (.array [])
  | .array items =>
    match room with
    | 0 => none
    | room + 1 => .array <$> items.values? room
  | .emptyObject _ => if room = 0 then none else some (.object [])
  | .object members =>
    match room with
    | 0 => none
    | room + 1 => (fun entries => .object (SortedMap.ofList entries).entries) <$> members.values? room
  | .broken => none
def Items.values? (room : Nat) : Items → Option (List Value)
  | .last _ item _ => do return [← item.value? room]
  | .more _ item _ rest => do return (← item.value? room) :: (← rest.values? room)
  | .cut _ _ => none
def Members.values? (room : Nat) : Members → Option (List (String × Value))
  | .last label value _ => do return [(← label.key.text?,← value.value? room)]
  | .more label value _ rest => do
    return (← label.key.text?,← value.value? room) :: (← rest.values? room)
  | .cut _ _ => none
  | .stop => none
end

def Label.ofText (key : String) : Label := ⟨[],.ofText key,[],[]⟩

def Items.ofList (first : Node) : List Node → Items
  | [] => .last [] first []
  | second :: rest => .more [] first [] (ofList second rest)

def Members.ofList (key : String) (value : Node) : List (String × Node) → Members
  | [] => .last (.ofText key) value []
  | (next,second) :: rest => .more (.ofText key) value [] (ofList next second rest)

namespace Node

def ofText (text : String) : Node := .string (.ofText text)

def ofInt (n : Int) : Node := .number (.ofInt n)

def ofList : List Node → Node
  | [] => .emptyArray []
  | first :: rest => .array (.ofList first rest)

def ofMembers : List (String × Node) → Node
  | [] => .emptyObject []
  | (key,value) :: rest => .object (.ofList key value rest)

end Node

mutual
def Value.toNode : Value → Node
  | .null => .null
  | .boolean value => .boolean value
  | .number value => .number value.toLiteral
  | .string text => .ofText text
  | .array items => .ofList (Value.toNodes items)
  | .object members => .ofMembers (Value.toMembers members)
def Value.toNodes : List Value → List Node
  | [] => []
  | item :: rest => item.toNode :: Value.toNodes rest
def Value.toMembers : List (String × Value) → List (String × Node)
  | [] => []
  | (key,value) :: rest => (key,value.toNode) :: Value.toMembers rest
end

namespace Value

def text (value : Value) : String := value.toNode.text

def ofMap (map : SortedMap Value) : Value := .object map.entries

def string? : Value → Option String
  | .string text => some text
  | _ => none

end Value
end Jmap.Json
