import Jmap.Json.Value
import Jmap.Text.Quoted

/-! Why data does not pass the JSON boundary. A violation is a broken rule of the
protocol, a defect is what a reader or writer of JSON reports. -/
namespace Jmap

inductive Violation where
  | outOfRange
  | invalidId (text : String)
  /-- The detail says which text is no date. -/
  | invalidDate (detail : String)
  | notUtc (text : String)
  | invalidPointer (text : String)
  | missingErrorType
  | missingCoreCapability

def coreUri : String := "urn:ietf:params:jmap:core"

def Violation.message : Violation → String
  | .outOfRange => "integer value is not within allowed range"
  | .invalidId text => "invalid id: " ++ Text.quoted text
  | .invalidDate detail => "invalid date: " ++ detail
  | .notUtc text => "date is not in UTC: " ++ Text.quoted text
  | .invalidPointer text => "invalid json pointer syntax: " ++ Text.quoted text
  | .missingErrorType => "missing type field in error object"
  | .missingCoreCapability => coreUri ++ " capability object is missing"

inductive Defect where
  /-- No JSON, or JSON of another type than the one asked for. -/
  | malformed
  | missingField (name : String)
  | duplicateField (name : String)
  | notText (key : String) (value : Json.Value)
  | invalidStatus (value : Json.Value)
  | violation (cause : Violation)
  /-- A defect of a part, reported by the whole. -/
  | nested (inner : Defect)
  | described (text : String)

def defectLabel : String := "Serialization error: "

def Defect.message : Defect → String
  | .malformed => "malformed JSON"
  | .missingField name => "missing field \x60" ++ name ++ "\x60"
  | .duplicateField name => "duplicate field \x60" ++ name ++ "\x60"
  | .notText key value => "field " ++ Text.quoted key ++ " must be a string, got " ++ value.text
  | .invalidStatus value => "invalid status: " ++ value.text
  | .violation cause => cause.message
  | .nested inner => defectLabel ++ inner.message
  | .described text => text

end Jmap
