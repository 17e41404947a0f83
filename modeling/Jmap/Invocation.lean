import Jmap.Error

/-! A method call or result: name, arguments and call id. On the wire it is a
triplet, `["Core/echo",{},"c1"]`, whose arguments are an object. -/
namespace Jmap
open Json

structure Invocation (A : Type) where
  name : String
  callId : String
  arguments : A
  deriving DecidableEq

/-- An invocation as it stands on the wire, its arguments not yet understood. -/
structure Triplet where
  name : String
  arguments : Raw
  callId : String
  isObject : arguments.isObject
  deriving DecidableEq

namespace Triplet

def new (name : String) (arguments : Raw) (callId : String) : Except Error Triplet :=
  if isObject : arguments.isObject then .ok ⟨name,arguments,callId,isObject⟩
  else .error .argumentsNotObject

def toRaw (triplet : Triplet) : Raw :=
  .ofList [.ofString triplet.name,triplet.arguments,.ofString triplet.callId]

/-- The number of elements is checked first, then the elements from left to right. -/
def ofElements : List Raw → Except Error Triplet
  | [name,arguments,callId] => do
    let name ← (Reader.text.ofRaw name).mapError .serialization
    if isObject : arguments.isObject then
      let callId ← (Reader.text.ofRaw callId).mapError .serialization
      return ⟨name,arguments,callId,isObject⟩
    else throw .argumentsNotObject
  | elements => throw (.invocationArity elements.length)

def elementsReader : Reader (List Raw) := Reader.list Reader.raw

def ofText (text : String) : Except Error Triplet := do
  ofElements (← (elementsReader.ofText text).mapError .serialization)

end Triplet

namespace Invocation
variable {A : Type} [Writable A]

def toTriplet (invocation : Invocation A) : Except Error Triplet := do
  let arguments ← (encode invocation.arguments).mapError .serialization
  Triplet.new invocation.name arguments invocation.callId

def toRaw (invocation : Invocation A) : Except Error Raw := Triplet.toRaw <$> invocation.toTriplet

end Invocation
end Jmap
