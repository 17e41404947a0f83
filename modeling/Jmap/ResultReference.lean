import Jmap.Pointer.Pointable
import Jmap.Response

/-! References to a value in the result of an earlier call of the same request. -/
namespace Jmap
open Json

structure ResultReference where
  resultOf : String
  name : String
  path : Pointer
  deriving DecidableEq

namespace ResultReference

instance : Writable ResultReference where
  encode reference := encodeMembers
    [("resultOf",encode reference.resultOf),("name",encode reference.name),("path",encode reference.path)]

def reader : Reader ResultReference :=
  .record
    [.of "resultOf" .required .text fun resultOf reference => {reference with resultOf},
     .of "name" .required .text fun name reference => {reference with name},
     .of "path" .required Pointer.reader fun path reference => {reference with path}]
    ⟨"","",.root⟩

def result? {A : Type} (reference : ResultReference) : MethodResponse A → Option (Invocation A)
  | .success result =>
    if result.callId = reference.resultOf ∧ result.name = reference.name then some result else none
  | .failure _ => none

/-- The first result that matches is taken, whether or not the path leads anywhere in it. -/
def resolve {A : Type} [ToPointable A] (reference : ResultReference) (responses : List (MethodResponse A)) :
    Except Error Value := do
  match responses.findSome? reference.result? with
  | none => throw (.unresolvedReference (reference.resultOf ++ "/" ++ reference.name))
  | some result =>
    let place ← (toPointable result.arguments).resolve reference.path
    place.toValue.mapError .serialization

end ResultReference
end Jmap
