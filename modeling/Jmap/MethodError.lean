import Jmap.ErrorCode
import Jmap.PropertyBag

/-! The error object that takes the place of one call's response. It travels under
a reserved method name; the call's id stands beside it and not in it. -/
namespace Jmap
open Json

structure MethodError where
  callId : String
  code : ErrorCode
  properties : PropertyBag

namespace MethodError

def reservedName : String := "error"

def new (code : ErrorCode) (callId : String) : MethodError := ⟨callId,code,.empty⟩

def description? (error : MethodError) : Option String :=
  (error.properties.find? "description").bind Value.string?

def display (error : MethodError) : String :=
  match error.description? with
  | some description => error.code.text ++ ": " ++ description
  | none => error.code.text

/-- The code replaces an entry of the bag. -/
def toBag (error : MethodError) : PropertyBag := error.properties.insert "type" (.string error.code.text)

def toRaw (error : MethodError) : Raw := error.toBag.toRaw

instance : Writable MethodError := ⟨fun error => .ok error.toRaw⟩

def ofBag (callId : String) (bag : PropertyBag) : Except FieldFault MethodError := do
  let type ← bag.type
  return ⟨callId,.ofText type,bag.erase "type"⟩

/-- On its own the object has no call id. -/
def reader : Reader MethodError :=
  PropertyBag.reader.andThen fun bag => (ofBag "" bag).mapError FieldFault.toDefect

end MethodError
end Jmap
