import Jmap.Json.Writable
import Jmap.Json.Reader
import Jmap.Timestamp.Written

/-! Dates with the offset of their clock, and dates that are always written in UTC. -/
namespace Jmap
open Json

structure Date where
  time : Timestamp
  deriving DecidableEq

structure UtcDate where
  time : Timestamp
  deriving DecidableEq

namespace Date

def parse (text : String) : Except Violation Date :=
  match WrittenTime.ofText? text with
  | some written => .ok ⟨written.time⟩
  | none => .error (.invalidDate (Text.quoted text))

def display (date : Date) : String := date.time.text

instance : Writable Date := ⟨fun date => .ok (.ofString date.display)⟩

def reader : Reader Date := Reader.text.andThen fun text => (parse text).mapError .violation

end Date

namespace UtcDate

def ofDate (date : Date) : UtcDate := ⟨date.time⟩

def toDate (date : UtcDate) : Date := ⟨date.time⟩

/-- The text has to state that its offset is zero. -/
def parse (text : String) : Except Violation UtcDate :=
  match WrittenTime.ofText? text with
  | none => .error (.invalidDate (Text.quoted text))
  | some written =>
    if written.offset.seconds ≠ 0 ∨ written.offset.isUnknown then .error (.notUtc text)
    else .ok ⟨written.time⟩

def display (date : UtcDate) : String := date.time.inUtc.text

instance : Writable UtcDate := ⟨fun date => .ok (.ofString date.display)⟩

def reader : Reader UtcDate := Reader.text.andThen fun text => (parse text).mapError .violation

end UtcDate
end Jmap
