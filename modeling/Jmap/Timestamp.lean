import Jmap.Calendar

/-! Instants with the offset of the clock on which they were read. -/
namespace Jmap

/-- What a calendar and a clock show. Second 60 is a leap second. -/
structure ClockReading where
  date : CalendarDay
  hour : Nat
  minute : Nat
  second : Nat
  deriving DecidableEq

namespace ClockReading

def isValid (reading : ClockReading) : Bool :=
  reading.date.isValid && reading.hour < 24 && reading.minute < 60 && reading.second ≤ 60

end ClockReading

/-- `seconds` are counted from the start of 1970 in UTC, without leap seconds. A
leap second is the second before it with a thousand million nanoseconds or more.
The offset is in seconds east of UTC. -/
structure Timestamp where
  seconds : Int
  nanos : Nat
  offset : Int
  deriving DecidableEq

namespace Timestamp

def nanosPerSecond : Nat := 1000000000

def secondsPerDay : Int := 86400

def ofReading (reading : ClockReading) (nanos : Nat) (offset : Int) : Timestamp :=
  let isLeap := reading.second == 60
  let second := if isLeap then 59 else reading.second
  {seconds := reading.date.number * secondsPerDay +
      (reading.hour * 3600 + reading.minute * 60 + second : Nat) - offset,
   nanos := if isLeap then nanos + nanosPerSecond else nanos,
   offset := offset}

/-- What a clock with the timestamp's offset showed. -/
def reading (time : Timestamp) : ClockReading :=
  let seconds := time.seconds + time.offset
  let second := (seconds % secondsPerDay).toNat
  {date := .ofNumber (seconds / secondsPerDay),
   hour := second / 3600,
   minute := second % 3600 / 60,
   second := second % 60 + if nanosPerSecond ≤ time.nanos then 1 else 0}

def inUtc (time : Timestamp) : Timestamp := {time with offset := 0}

/-- Earlier instants first; the offset does not count. -/
def compare (left right : Timestamp) : Ordering :=
  (Ord.compare left.seconds right.seconds).then (Ord.compare left.nanos right.nanos)

end Timestamp
end Jmap
