import Jmap.Json.Writable
import Jmap.Json.Reader

/-! Members of an error object under any name, from which the named fields are
taken and over which they are written. -/
namespace Jmap
open Json

abbrev PropertyBag := SortedMap Value

inductive FieldFault where
  | missingType
  | notText (key : String) (value : Value)

/-- As an object reports it that was read as a part of something. -/
def FieldFault.toDefect : FieldFault → Defect
  | .missingType => .violation .missingErrorType
  | .notText key value => .nested (.notText key value)

namespace PropertyBag

def reader : Reader PropertyBag := Reader.sortedMap Reader.value

/-- Null counts as absent. -/
def text? (bag : PropertyBag) (key : String) : Except FieldFault (Option String) :=
  match bag.find? key with
  | none => .ok none
  | some .null => .ok none
  | some (.string text) => .ok (some text)
  | some value => .error (.notText key value)

def type (bag : PropertyBag) : Except FieldFault String := do
  match ← bag.text? "type" with
  | some type => return type
  | none => throw .missingType

/-- An empty text is left out, and then an entry of the bag stays. -/
def withText (bag : PropertyBag) (key : String) (text : String) : PropertyBag :=
  if text = "" then bag else bag.insert key (.string text)

def toRaw (bag : PropertyBag) : Raw := .ofValue (.ofMap bag)

end PropertyBag
end Jmap
