import Jmap.MethodError
import Jmap.Problem

/-! Everything that can go wrong in encoding, decoding and in a client. Errors that
the protocol itself reports are held as the objects that report them. -/
namespace Jmap

inductive Error where
  | invocationArity (count : Nat)
  | argumentsNotObject
  | unknownMethod (name : String)
  | invalid (cause : Violation)
  | noPointerValue (path : String)
  | unresolvedReference (reference : String)
  | serialization (defect : Defect)
  | request (problem : Problem)
  | method (error : MethodError)
  | http (status : Nat)
  | transport (reason : String)
  | sessionEndpointMissing
  | internal (reason : String)
  | entropy (reason : String)

namespace Error

def message : Error → String
  | .invocationArity count => "malformed invocation: need exactly 3 elements, got " ++ toString count
  | .argumentsNotObject => "malformed invocation: arguments must be an object"
  | .unknownMethod name => "unknown method: " ++ name
  | .invalid cause => cause.message
  | .noPointerValue path => "no pointer value: " ++ Text.quoted path
  | .unresolvedReference reference => "result reference " ++ reference ++ " matches no response"
  | .serialization defect => defectLabel ++ defect.message
  | .request problem => "request error: " ++ problem.display
  | .method error => "method error: " ++ error.display
  | .http status => "HTTP " ++ toString status
  | .transport reason => "Transport error: " ++ reason
  | .sessionEndpointMissing => "session endpoint is empty"
  | .internal reason => "Internal error: " ++ reason
  | .entropy reason => "random source failure: " ++ reason

/-- As the object itself reports it. -/
def ofFieldFault : FieldFault → Error
  | .missingType => .invalid .missingErrorType
  | .notText key value => .serialization (.notText key value)

end Error

def MethodError.ofArguments (callId : String) (arguments : Json.Raw) : Except Error MethodError := do
  let bag ← (PropertyBag.reader.ofRaw arguments).mapError .serialization
  (MethodError.ofBag callId bag).mapError .ofFieldFault

end Jmap
