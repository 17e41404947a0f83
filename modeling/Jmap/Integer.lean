import Jmap.Json.Writable
import Jmap.Json.Reader

/-! Integers that a floating-point number of 64 bits holds exactly. A value outside
the range can be held; it is refused where it would be written or read. -/
namespace Jmap
open Json

def maxSafeInteger : Int := 0x1fffffffffffff

structure SignedInt where
  value : Int
  deriving DecidableEq

structure UnsignedInt where
  value : Nat
  deriving DecidableEq

namespace SignedInt

def isValid (n : SignedInt) : Bool := -maxSafeInteger ≤ n.value && n.value ≤ maxSafeInteger

def new (value : Int) : Except Violation SignedInt :=
  if isValid ⟨value⟩ then .ok ⟨value⟩ else .error .outOfRange

def display (n : SignedInt) : String := toString n.value

instance : Writable SignedInt where
  encode n := if n.isValid then .ok (.ofInt n.value) else .error (.violation .outOfRange)

/-- An integer of 64 bits is read first and its range checked afterwards. -/
def reader : Reader SignedInt :=
  (Reader.integer (-signedLimit) (signedLimit - 1)).andThen fun n => (new n).mapError .violation

end SignedInt

namespace UnsignedInt

def isValid (n : UnsignedInt) : Bool := (n.value : Int) ≤ maxSafeInteger

def new (value : Nat) : Except Violation UnsignedInt :=
  if isValid ⟨value⟩ then .ok ⟨value⟩ else .error .outOfRange

def display (n : UnsignedInt) : String := toString n.value

instance : Writable UnsignedInt where
  encode n := if n.isValid then .ok (.ofInt n.value) else .error (.violation .outOfRange)

def reader : Reader UnsignedInt :=
  (Reader.integer 0 wordMax).andThen fun n => (new n.toNat).mapError .violation

end UnsignedInt
end Jmap
