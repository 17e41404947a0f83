import Jmap.Json.Literal
import Jmap.Json.NumberLiteral

/-! JSON text as a tree that keeps every character: blanks between tokens, the
spelling of literals, the order and repetition of members. Where a text stops
being JSON the tree breaks off, so that whoever reads it from left to right
meets earlier faults first. -/
namespace Jmap.Json

inductive Blank where
  | space | tab | lineFeed | carriageReturn
  deriving DecidableEq

def Blank.char : Blank → Char
  | .space => ' '
  | .tab => '\t'
  | .lineFeed => '\n'
  | .carriageReturn => '\r'

def Blank.ofChar? : Char → Option Blank
  | ' ' => some .space
  | '\t' => some .tab
  | '\n' => some .lineFeed
  | '\r' => some .carriageReturn
  | _ => none

abbrev Gap := List Blank

namespace Gap

def print (gap : Gap) : List Char := gap.map Blank.char

def scan : List Char → Gap × List Char
  | [] => ([],[])
  | c :: rest =>
    match Blank.ofChar? c with
    | none => ([],c :: rest)
    | some blank =>
      let (gap,rest) := scan rest
      (blank :: gap,rest)

end Gap

/-- A member's key with the blanks around it and around its colon. -/
structure Label where
  before : Gap
  key : Literal
  beforeColon : Gap
  afterColon : Gap
  deriving DecidableEq

def Label.print (label : Label) : List Char :=
  label.before.print ++ label.key.print ++ label.beforeColon.print ++ ':' :: label.afterColon.print

mutual
inductive Node where
  | null
  | boolean (value : Bool)
  | number (literal : NumberLiteral)
  | string (literal : Literal)
  | emptyArray (inside : Gap)
  | array (items : Items)
  | emptyObject (inside : Gap)
  | object (members : Members)
  /-- The text is no JSON from here on. -/
  | broken
  deriving DecidableEq
inductive Items where
  | last (before : Gap) (item : Node) (after : Gap)
  | more (before : Gap) (item : Node) (after : Gap) (rest : Items)
  /-- Neither a comma nor the closing bracket follows. -/
  | cut (before : Gap) (item : Node)
  deriving DecidableEq
inductive Members where
  | last (label : Label) (value : Node) (after : Gap)
  | more (label : Label) (value : Node) (after : Gap) (rest : Members)
  /-- Neither a comma nor the closing brace follows. -/
  | cut (label : Label) (value : Node)
  /-- Here should stand a key. -/
  | stop
  deriving DecidableEq
end

mutual
def Node.print : Node → List Char
  | .null => ['n','u','l','l']
  | .boolean true => ['t','r','u','e']
  | .boolean false => ['f','a','l','s','e']
  | .number literal => literal.print
  | .string literal => literal.print
  | .emptyArray inside => '[' :: inside.print ++ [']']
  | .array items => '[' :: items.print
  | .emptyObject inside => '{' :: inside.print ++ ['}']
  | .object members => '{' :: members.print
  | .broken => []
def Items.print : Items → List Char
  | .last before item after => before.print ++ item.print ++ after.print ++ [']']
  | .more before item after rest => before.print ++ item.print ++ after.print ++ ',' :: rest.print
  | .cut before item => before.print ++ item.print
def Members.print : Members → List Char
  | .last label value after => label.print ++ value.print ++ after.print ++ ['}']
  | .more label value after rest => label.print ++ value.print ++ after.print ++ ',' :: rest.print
  | .cut label value => label.print ++ value.print
  | .stop => []
end

mutual
/-- The printed characters before `tail`. Nested trees cost no more than flat ones. -/
def Node.printOnto (tail : List Char) : Node → List Char
  | .array items => '[' :: items.printOnto tail
  | .object members => '{' :: members.printOnto tail
  | node => node.print ++ tail
def Items.printOnto (tail : List Char) : Items → List Char
  | .last before item after => before.print ++ item.printOnto (after.print ++ ']' :: tail)
  | .more before item after rest =>
    before.print ++ item.printOnto (after.print ++ ',' :: rest.printOnto tail)
  | .cut before item => before.print ++ item.printOnto tail
def Members.printOnto (tail : List Char) : Members → List Char
  | .last label value after => label.print ++ value.printOnto (after.print ++ '}' :: tail)
  | .more label value after rest =>
    label.print ++ value.printOnto (after.print ++ ',' :: rest.printOnto tail)
  | .cut label value => label.print ++ value.printOnto tail
  | .stop => tail
end

mutual
theorem Node.printOnto_eq (tail : List Char) : ∀ node : Node, node.printOnto tail = node.print ++ tail
  | .null => rfl
  | .boolean _ => rfl
  | .number _ => rfl
  | .string _ => rfl
  | .emptyArray _ => rfl
  | .array items => by simp [Node.printOnto,Node.print,Items.printOnto_eq tail items]
  | .emptyObject _ => rfl
  | .object members => by simp [Node.printOnto,Node.print,Members.printOnto_eq tail members]
  | .broken => rfl
theorem Items.printOnto_eq (tail : List Char) : ∀ items : Items, items.printOnto tail = items.print ++ tail
  | .last before item after => by
    simp [Items.printOnto,Items.print,Node.printOnto_eq (after.print ++ ']' :: tail) item]
  | .more before item after rest => by
    simp [Items.printOnto,Items.print,Items.printOnto_eq tail rest,
      Node.printOnto_eq (after.print ++ ',' :: (rest.print ++ tail)) item]
  | .cut before item => by simp [Items.printOnto,Items.print,Node.printOnto_eq tail item]
theorem Members.printOnto_eq (tail : List Char) :
    ∀ members : Members, members.printOnto tail = members.print ++ tail
  | .last label value after => by
    simp [Members.printOnto,Members.print,Node.printOnto_eq (after.print ++ '}' :: tail) value]
  | .more label value after rest => by
    simp [Members.printOnto,Members.print,Members.printOnto_eq tail rest,
      Node.printOnto_eq (after.print ++ ',' :: (rest.print ++ tail)) value]
  | .cut label value => by simp [Members.printOnto,Members.print,Node.printOnto_eq tail value]
  | .stop => rfl
end

def Node.text (node : Node) : String := String.ofList (node.printOnto [])

theorem Node.text_eq (node : Node) : node.text = String.ofList node.print := by
  simp [Node.text,Node.printOnto_eq]

mutual
/-- Nowhere broken: the tree of a whole JSON text. -/
def Node.isClosed : Node → Bool
  | .array items => items.isClosed
  | .object members => members.isClosed
  | .broken => false
  | _ => true
def Items.isClosed : Items → Bool
  | .last _ item _ => item.isClosed
  | .more _ item _ rest => item.isClosed && rest.isClosed
  | .cut _ _ => false
def Members.isClosed : Members → Bool
  | .last _ value _ => value.isClosed
  | .more _ value _ rest => value.isClosed && rest.isClosed
  | .cut _ _ => false
  | .stop => false
end

def Node.isObject : Node → Bool
  | .emptyObject _ => true
  | .object _ => true
  | _ => false

/-- The items as they follow each other, the one where the text breaks off included. -/
def Items.toList : Items → List Node
  | .last _ item _ => [item]
  | .more _ item _ rest => item :: rest.toList
  | .cut _ item => [item]

end Jmap.Json
