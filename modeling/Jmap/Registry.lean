import Jmap.Invocation
import Jmap.SortedMap

/-! Decoders of arguments by method name. The one registered or merged last counts. -/
namespace Jmap
open Json

abbrev Decoder (A : Type) := Raw → Except Error A

def Decoder.typed {A : Type} (reader : Reader A) : Decoder A :=
  fun arguments => (reader.ofRaw arguments).mapError .serialization

abbrev Registry (A : Type) := SortedMap (Decoder A)

namespace Registry
variable {A : Type}

def decoder? (registry : Registry A) (method : String) : Option (Decoder A) := registry.find? method

def decodeArguments (registry : Registry A) (triplet : Triplet) : Except Error A :=
  match registry.decoder? triplet.name with
  | none => .error (.unknownMethod triplet.name)
  | some decoder => decoder triplet.arguments

def decodeCall (registry : Registry A) (triplet : Triplet) : Except Error (Invocation A) := do
  return ⟨triplet.name,triplet.callId,← registry.decodeArguments triplet⟩

def display (registry : Registry A) : String :=
  "Registry \x7b methods: [" ++ String.intercalate ", " (registry.keys.map Text.quoted) ++ "] \x7d"

end Registry
end Jmap
