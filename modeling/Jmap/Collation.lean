import Jmap.Json.Writable
import Jmap.Json.Reader

/-! Ways to compare texts in query results, by their registered names. Names that
are not in the table are kept as they are. -/
namespace Jmap
open Json

inductive Collation where
  | asciiNumeric | asciiCasemap | unicodeCasemap
  | other (name : String)
  deriving DecidableEq

namespace Collation

def all : List Collation := [.asciiNumeric,.asciiCasemap,.unicodeCasemap]

def name : Collation → String
  | .asciiNumeric => "i;ascii-numeric"
  | .asciiCasemap => "i;ascii-casemap"
  | .unicodeCasemap => "i;unicode-casemap"
  | .other name => name

def ofName (name : String) : Collation := (all.find? (·.name == name)).getD (.other name)

def isKnown (collation : Collation) : Bool := all.contains collation

instance : Writable Collation := ⟨fun collation => .ok (.ofString collation.name)⟩

def reader : Reader Collation := Reader.text.map ofName

end Collation
end Jmap
