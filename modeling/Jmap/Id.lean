import Jmap.Json.Writable
import Jmap.Json.Reader

/-! Identifiers of 1 to 255 characters from the alphabet that is safe in URLs and
file names. An invalid one can be held; it is refused where it would be written
or read. -/
namespace Jmap
open Json

structure Id where
  text : String
  deriving DecidableEq

namespace Id

instance : Inhabited Id := ⟨⟨""⟩⟩

def isAllowed (c : Char) : Bool := c.isAlphanum || c == '-' || c == '_'

/-- Every allowed character is one byte long. -/
def isValid (id : Id) : Bool :=
  let length := id.text.utf8ByteSize
  1 ≤ length && length ≤ 255 && id.text.toList.all isAllowed

/-- Valid, and neither a number nor an option nor nothing to programs that meet
it bare: it starts with no digit or hyphen, is not made of digits only and does
not read `NIL`. -/
def isSafe (id : Id) : Bool :=
  let cs := id.text.toList
  id.isValid && cs.head?.any (fun c => c != '-' && !c.isDigit) && !cs.all Char.isDigit && id.text != "NIL"

def new (text : String) : Except Violation Id :=
  if isValid ⟨text⟩ then .ok ⟨text⟩ else .error (.invalidId text)

instance : Writable Id where
  encode id := if id.isValid then .ok (.ofString id.text) else .error (.violation (.invalidId id.text))

def reader : Reader Id := Reader.text.andThen fun text => (new text).mapError .violation

def checkKey (key : String) : Except Defect Unit := (fun _ => ()) <$> (new key).mapError .violation

def mapReader {A : Type} (reader : Reader A) : Reader (SortedMap A) := Reader.checkedMap checkKey reader

/-- Each key is checked before its value is written. -/
def encodeMap {A : Type} [Writable A] (map : SortedMap A) : Except Defect Raw :=
  encodeMembers (map.entries.map fun entry =>
    (entry.1,do
      checkKey entry.1
      encode entry.2))

end Id
end Jmap
