import Jmap.Request

/-! The results of a batch, in the order of its calls. -/
namespace Jmap
open Json

inductive MethodResponse (A : Type) where
  | success (result : Invocation A)
  | failure (error : MethodError)

namespace MethodResponse
variable {A : Type}

def name : MethodResponse A → String
  | .success result => result.name
  | .failure _ => MethodError.reservedName

def callId : MethodResponse A → String
  | .success result => result.callId
  | .failure error => error.callId

def isError : MethodResponse A → Bool
  | .success _ => false
  | .failure _ => true

def toExcept : MethodResponse A → Except Error (Invocation A)
  | .success result => .ok result
  | .failure error => .error (.method error)

def toTriplet [Writable A] : MethodResponse A → Except Error Triplet
  | .success result => result.toTriplet
  | .failure error => Triplet.new MethodError.reservedName error.toRaw error.callId

/-- The reserved name needs no decoder and can have none. -/
def ofTriplet (registry : Registry A) (triplet : Triplet) : Except Error (MethodResponse A) :=
  if triplet.name = MethodError.reservedName then
    .failure <$> MethodError.ofArguments triplet.callId triplet.arguments
  else .success <$> registry.decodeCall triplet

end MethodResponse

structure Response (A : Type) where
  entries : List (MethodResponse A)
  createdIds : Option CreatedIds
  sessionState : String

namespace Response
variable {A : Type}

def new (sessionState : String) : Response A := ⟨[],none,sessionState⟩

def push (response : Response A) (entry : MethodResponse A) : Response A :=
  {response with entries := response.entries ++ [entry]}

def withCreatedIds (response : Response A) (ids : CreatedIds) : Response A :=
  {response with createdIds := some ids}

def find? (response : Response A) (callId : String) : Option (MethodResponse A) :=
  response.entries.find? (·.callId == callId)

/-- Every entry is checked before anything is written. -/
def encode [Writable A] (response : Response A) : Except Error Raw := do
  let triplets ← response.entries.mapM MethodResponse.toTriplet
  (encodeMembers
    (CreatedIds.members response.createdIds ++
      [("sessionState",.ok (.ofString response.sessionState)),
       ("methodResponses",.ok (.ofList (triplets.map Triplet.toRaw)))])).mapError .serialization

/-- A response whose entries are not yet understood. -/
structure Body where
  entries : List (List Raw)
  createdIds : Option CreatedIds
  sessionState : String

def Body.fields : List (RecordField Body) :=
  [.of "methodResponses" .defaulted (.list Triplet.elementsReader) fun entries body => {body with entries},
   .of "createdIds" .defaulted (.nullable CreatedIds.reader) fun createdIds body => {body with createdIds},
   .of "sessionState" .defaulted .text fun sessionState body => {body with sessionState}]

def Body.reader : Reader Body := .record fields ⟨[],none,""⟩

/-- The structure of every entry is checked before the arguments of any are decoded. -/
def Body.decode (registry : Registry A) (body : Body) : Except Error (Response A) := do
  let triplets ← body.entries.mapM Triplet.ofElements
  return ⟨← triplets.mapM (MethodResponse.ofTriplet registry),body.createdIds,body.sessionState⟩

def decode (registry : Registry A) (text : String) : Except Error (Response A) := do
  (← (Body.reader.ofText text).mapError .serialization).decode registry

end Response
end Jmap
