import Jmap.Json.Writable
import Jmap.Json.Reader
import Jmap.Text.Replacement

/-! Pointers into JSON documents: paths of reference tokens, kept with the text in which
they are written. A slash starts each token of the text; inside a token `~0` stands for
a tilde and `~1` for a slash. -/
namespace Jmap
open Json

structure Pointer where
  text : String
  tokens : List String
  deriving DecidableEq

namespace Pointer

/-- The whole document. -/
def root : Pointer := ⟨"",[]⟩

def isRoot (pointer : Pointer) : Bool := pointer.tokens.isEmpty

/-- Tildes come first, or those that are put before `1` would be escaped again. -/
def escape (token : List Char) : List Char :=
  Text.replace ['/'] ['~','1'] (Text.replace ['~'] ['~','0'] token)

/-- Slashes come first, or a tilde that is put before `1` would make a slash of it. -/
def unescape (segment : List Char) : List Char :=
  Text.replace ['~','0'] ['~'] (Text.replace ['~','1'] ['/'] segment)

def join (pointer : Pointer) (token : String) : Pointer :=
  ⟨pointer.text ++ String.ofList ('/' :: escape token.toList),pointer.tokens ++ [token]⟩

/-- Each tilde is followed by `0` or `1`. -/
def isEscaped : List Char → Bool
  | [] => true
  | ['~'] => false
  | '~' :: c :: rest => (c == '0' || c == '1') && isEscaped rest
  | _ :: rest => isEscaped rest

def ofText? (text : String) : Option Pointer :=
  match text.toList with
  | [] => some root
  | '/' :: rest =>
    if isEscaped ('/' :: rest) then
      some ⟨text,(rest.splitOn '/').map fun segment => String.ofList (unescape segment)⟩
    else none
  | _ => none

def parse (text : String) : Except Violation Pointer :=
  match ofText? text with
  | some pointer => .ok pointer
  | none => .error (.invalidPointer text)

instance : Writable Pointer := ⟨fun pointer => .ok (.ofString pointer.text)⟩

def reader : Reader Pointer := Reader.text.andThen fun text => (parse text).mapError .violation

/-- The index that a token denotes: a word in decimal without leading zeros. -/
def index? (token : String) : Option Nat := do
  let (whole,rest) ← NumberLiteral.scanWhole token.toList
  let index := Digits.value whole.digits.toList
  if rest.isEmpty ∧ index ≤ wordMax then some index else none

end Pointer
end Jmap
