import Jmap.Json.NumberLiteral
import Jmap.Timestamp

/-! Timestamps as they are written on the Internet: `2014-10-30T06:12:00.5-08:00`. The
written form keeps how the parts are spelled, and the instant is taken from it. -/
namespace Jmap
open Json

inductive OffsetSign where
  | plus
  | hyphen
  /-- The mathematical sign, U+2212. -/
  | minus
  deriving DecidableEq

namespace OffsetSign

def char : OffsetSign → Char
  | .plus => '+'
  | .hyphen => '-'
  | .minus => '\u2212'

def ofChar? (c : Char) : Option OffsetSign :=
  if c = '+' then some .plus
  else if c = '-' then some .hyphen
  else if c = '\u2212' then some .minus
  else none

end OffsetSign

inductive WrittenOffset where
  | zulu (capital : Bool)
  | shifted (sign : OffsetSign) (hours minutes : Nat)
  deriving DecidableEq

namespace WrittenOffset

/-- East of UTC. -/
def seconds : WrittenOffset → Int
  | .zulu _ => 0
  | .shifted .plus hours minutes => (hours * 3600 + minutes * 60 : Nat)
  | .shifted _ hours minutes => -(hours * 3600 + minutes * 60 : Nat)

/-- `-00:00` says that the offset is not known. -/
def isUnknown (offset : WrittenOffset) : Bool := offset == .shifted .hyphen 0 0

/-- Rounded to the nearest minute, half a minute away from UTC. -/
def ofSeconds (seconds : Int) : WrittenOffset :=
  let minutes := (seconds.natAbs + 30) / 60
  if seconds = 0 then .zulu true
  else .shifted (if seconds < 0 then .hyphen else .plus) (minutes / 60) (minutes % 60)

end WrittenOffset

structure WrittenTime where
  reading : ClockReading
  separator : Char
  /-- Digits behind the point; there is no point if there are none. -/
  fraction : List Digit
  offset : WrittenOffset
  deriving DecidableEq

namespace WrittenTime

/-- The last `width` decimal digits. -/
def padded : Nat → Nat → List Char
  | 0,_ => []
  | width + 1,n => padded width (n / 10) ++ [Nat.digitChar (n % 10)]

/-- Four digits from 0000 to 9999, and a sign with at least four digits beyond. -/
def yearText (year : Int) : List Char :=
  if 0 ≤ year ∧ year ≤ 9999 then padded 4 year.toNat
  else
    (if year < 0 then '-' else '+') ::
      if year.natAbs ≤ 9999 then padded 4 year.natAbs else Nat.toDigits 10 year.natAbs

def fractionText (digits : List Digit) : List Char :=
  if digits.isEmpty then [] else '.' :: Digits.print digits

def offsetText : WrittenOffset → List Char
  | .zulu capital => [if capital then 'Z' else 'z']
  | .shifted sign hours minutes => sign.char :: padded 2 hours ++ ':' :: padded 2 minutes

def print (written : WrittenTime) : List Char :=
  let date := written.reading.date
  yearText date.year ++ '-' :: padded 2 date.month ++ '-' :: padded 2 date.day ++
    written.separator :: padded 2 written.reading.hour ++ ':' :: padded 2 written.reading.minute ++
    ':' :: padded 2 written.reading.second ++ fractionText written.fraction ++ offsetText written.offset

/-- Exactly `count` digits, behind the number read before them. -/
def takeNumber : Nat → Nat → List Char → Option (Nat × List Char)
  | 0,number,rest => some (number,rest)
  | _ + 1,_,[] => none
  | count + 1,number,c :: rest => do
    let digit ← Digit.ofChar? c
    takeNumber count (number * 10 + digit.val) rest

def takeChar (allowed : Char → Bool) : List Char → Option (Char × List Char)
  | [] => none
  | c :: rest => if allowed c then some (c,rest) else none

def isSeparator (c : Char) : Bool := c == 'T' || c == 't' || c == ' '

/-- A point has to have a digit behind it. -/
def takeFraction : List Char → Option (List Digit × List Char)
  | '.' :: rest =>
    let (digits,rest) := Digits.scan rest
    if digits.isEmpty then none else some (digits,rest)
  | rest => some ([],rest)

def takeOffset : List Char → Option (WrittenOffset × List Char)
  | [] => none
  | 'Z' :: rest => some (.zulu true,rest)
  | 'z' :: rest => some (.zulu false,rest)
  | c :: rest => do
    let sign ← OffsetSign.ofChar? c
    let (hours,rest) ← takeNumber 2 0 rest
    let (_,rest) ← takeChar (· == ':') rest
    let (minutes,rest) ← takeNumber 2 0 rest
    if hours < 24 ∧ minutes < 60 then return (.shifted sign hours minutes,rest) else none

def scan (text : List Char) : Option (WrittenTime × List Char) := do
  let (year,rest) ← takeNumber 4 0 text
  let (_,rest) ← takeChar (· == '-') rest
  let (month,rest) ← takeNumber 2 0 rest
  let (_,rest) ← takeChar (· == '-') rest
  let (day,rest) ← takeNumber 2 0 rest
  let (separator,rest) ← takeChar isSeparator rest
  let (hour,rest) ← takeNumber 2 0 rest
  let (_,rest) ← takeChar (· == ':') rest
  let (minute,rest) ← takeNumber 2 0 rest
  let (_,rest) ← takeChar (· == ':') rest
  let (second,rest) ← takeNumber 2 0 rest
  let (fraction,rest) ← takeFraction rest
  let (offset,rest) ← takeOffset rest
  let reading : ClockReading := ⟨⟨year,month,day⟩,hour,minute,second⟩
  if reading.isValid then return (⟨reading,separator,fraction,offset⟩,rest) else none

def ofText? (text : String) : Option WrittenTime := do
  let (written,rest) ← scan text.toList
  if rest.isEmpty then return written else none

/-- Digits behind the ninth are left out. -/
def nanos (written : WrittenTime) : Nat :=
  Digits.value (written.fraction.take 9) * Nat.pow 10 (9 - written.fraction.length)

def time (written : WrittenTime) : Timestamp :=
  .ofReading written.reading written.nanos written.offset.seconds

end WrittenTime

namespace Timestamp

/-- With a capital `T`, without a fraction, and with `Z` where the offset is zero. -/
def written (time : Timestamp) : WrittenTime := ⟨time.reading,'T',[],.ofSeconds time.offset⟩

def text (time : Timestamp) : String := String.ofList time.written.print

end Timestamp
end Jmap
