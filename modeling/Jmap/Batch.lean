import Jmap.Request

/-! Requests whose call ids are the positions of the calls, in decimal from zero. -/
namespace Jmap
open Json

structure Batch (A : Type) where
  request : Request A

namespace Batch
variable {A : Type}

def empty : Batch A := ⟨.new []⟩

def size (batch : Batch A) : Nat := batch.request.calls.length

def isEmpty (batch : Batch A) : Bool := batch.size == 0

def nextCallId (batch : Batch A) : String := toString batch.size

/-- The id of the n-th call, counted from one; zero counts as one. -/
def nthCallId (n : Nat) : String := toString (n - 1)

def useCapability (batch : Batch A) (capability : String) : Batch A :=
  ⟨batch.request.useCapability capability⟩

def add (batch : Batch A) (name : String) (arguments : A) : String × Batch A :=
  let callId := batch.nextCallId
  (callId,⟨batch.request.pushCall ⟨name,callId,arguments⟩⟩)

end Batch
end Jmap
