import Jmap.Id
import Jmap.Json.Record
import Jmap.Registry

/-! A batch of method calls with the capabilities that it uses. -/
namespace Jmap
open Json

/-- Creation ids chosen by the client, with the ids that the server assigned. -/
abbrev CreatedIds := SortedMap Id

namespace CreatedIds

def reader : Reader CreatedIds := Id.mapReader Id.reader

/-- As a part of a body it is left out where there is none. -/
def members (createdIds : Option CreatedIds) : List (String × Except Defect Raw) :=
  match createdIds with
  | none => []
  | some ids => [("createdIds",Id.encodeMap ids)]

end CreatedIds

structure Request (A : Type) where
  uses : List String
  calls : List (Invocation A)
  createdIds : Option CreatedIds

namespace Request
variable {A : Type}

def new (uses : List String) : Request A := ⟨uses,[],none⟩

def pushCall (request : Request A) (call : Invocation A) : Request A :=
  {request with calls := request.calls ++ [call]}

/-- Listed once, where it was first declared. -/
def useCapability (request : Request A) (capability : String) : Request A :=
  if request.uses.contains capability then request
  else {request with uses := request.uses ++ [capability]}

def withCreatedIds (request : Request A) (ids : CreatedIds) : Request A :=
  {request with createdIds := some ids}

/-- Every call is checked before anything is written. -/
def encode [Writable A] (request : Request A) : Except Error Raw := do
  let triplets ← request.calls.mapM Invocation.toTriplet
  (encodeMembers
    ([("using",Writable.encode request.uses)] ++ CreatedIds.members request.createdIds ++
      [("methodCalls",.ok (.ofList (triplets.map Triplet.toRaw)))])).mapError .serialization

/-- A request whose calls are not yet understood. -/
structure Body where
  uses : List String
  calls : List (List Raw)
  createdIds : Option CreatedIds

def Body.fields : List (RecordField Body) :=
  [.of "using" .defaulted (.list .text) fun uses body => {body with uses},
   .of "methodCalls" .defaulted (.list Triplet.elementsReader) fun calls body => {body with calls},
   .of "createdIds" .defaulted (.nullable CreatedIds.reader) fun createdIds body => {body with createdIds}]

def Body.reader : Reader Body := .record fields ⟨[],[],none⟩

/-- The structure of every call is checked before the arguments of any are decoded. -/
def Body.decode (registry : Registry A) (body : Body) : Except Error (Request A) := do
  let triplets ← body.calls.mapM Triplet.ofElements
  return ⟨body.uses,← triplets.mapM registry.decodeCall,body.createdIds⟩

def decode (registry : Registry A) (text : String) : Except Error (Request A) := do
  (← (Body.reader.ofText text).mapError .serialization).decode registry

end Request
end Jmap
