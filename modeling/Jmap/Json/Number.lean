import Jmap.Binary64.Shortest
import Jmap.Json.NumberLiteral

/-! What number literals denote: integers of 64 bits, or else floating-point
numbers, which have a shortest literal. -/
namespace Jmap.Json

/-- A literal without fraction and exponent is an integer if 64 bits hold it. -/
inductive Number where
  | integer (value : Int)
  | double (value : Binary64)
  deriving DecidableEq

def wordMax : Nat := 0xffffffffffffffff

/-- The size of the least signed integer of 64 bits. -/
def signedLimit : Nat := 0x8000000000000000

/-- The digits of a literal as far as a word holds them: the number read and
the power of ten that stands for the digits left out. -/
structure Significand where
  value : Nat
  exponent : Int
  deriving DecidableEq

namespace Significand

/-- A digit before the point that no longer fits counts by its place alone. -/
def ofWhole (value : Nat) : List Digit → Significand
  | [] => ⟨value,0⟩
  | digit :: rest =>
    if value * 10 + digit.val ≤ wordMax then ofWhole (value * 10 + digit.val) rest
    else ⟨value,(digit :: rest).length⟩

/-- A digit after the point that no longer fits ends the reading. -/
def withFraction (significand : Significand) : List Digit → Significand
  | [] => significand
  | digit :: rest =>
    if significand.value * 10 + digit.val ≤ wordMax then
      withFraction ⟨significand.value * 10 + digit.val,significand.exponent - 1⟩ rest
    else significand

end Significand

/-- Only these powers of ten are at hand as floating-point numbers. -/
def largestPower : Nat := 308

def powerOfTen? (exponent : Nat) : Option Binary64 :=
  if exponent ≤ largestPower then Binary64.ofNat? (Nat.pow 10 exponent) else none

/-- One rounding for the significand and one for each power of ten applied to
it, so the result can be a neighbour of the nearest number. None where it would
be infinite. -/
def scale? (significand : Significand) : Option Binary64 := do
  let base ← Binary64.ofNat? significand.value
  if base.isZero then return base
  let size := significand.exponent.natAbs
  if 0 ≤ significand.exponent then base.mul? (← powerOfTen? size)
  else if size ≤ largestPower then base.div? (← powerOfTen? size)
  else
    let small ← base.div? (← powerOfTen? largestPower)
    if size ≤ 2 * largestPower then small.div? (← powerOfTen? (size - largestPower))
    else return .zero

namespace Number

/-- None where the number is too large. -/
def ofLiteral? (literal : NumberLiteral) : Option Number :=
  let whole := Significand.ofWhole 0 literal.whole.digits.toList
  let double (significand : Significand) : Option Number := do
    let size ← scale? significand
    return .double {size with negative := literal.negative}
  if literal.isInteger ∧ whole.exponent = 0 then
    if !literal.negative then some (.integer whole.value)
    else if 1 ≤ whole.value ∧ whole.value ≤ signedLimit then some (.integer (-whole.value))
    else double whole
  else
    let fraction := (literal.fraction.map SomeDigits.toList).getD []
    let significand := whole.withFraction fraction
    let shift := (literal.exponent.map Exponent.value).getD 0
    double {significand with exponent := significand.exponent + shift}

end Number

namespace NumberLiteral

/-- Without a mark the point follows the first digit. -/
def exponential (negative : Bool) (digits : SomeDigits) (exponent : Int) : NumberLiteral :=
  ⟨negative,.ofDigits [digits.first],SomeDigits.ofList? digits.rest,
    (SomeDigits.ofList? (Digits.ofNat exponent.natAbs)).map fun size =>
      ⟨false,if exponent < 0 then .minus else .plus,size⟩⟩

/-- The point follows the digit of value one, and a digit follows the point. -/
def positional (negative : Bool) (digits : List Digit) (exponent : Int) : NumberLiteral :=
  if exponent < 0 then
    ⟨negative,.zero,SomeDigits.ofList? (List.replicate (exponent.natAbs - 1) .zero ++ digits),none⟩
  else
    let (whole,fraction) := digits.splitAt (exponent.toNat + 1)
    ⟨negative,.ofDigits (whole ++ List.replicate (exponent.toNat + 1 - whole.length) .zero),
      some ((SomeDigits.ofList? fraction).getD ⟨.zero,[]⟩),none⟩

/-- The shortest digits, with an exponent from `1e+16` upwards and below `1e-5`. -/
def ofBinary64 (x : Binary64) : NumberLiteral :=
  let decimal := x.shortest
  let all := Digits.ofNat decimal.digits
  let exponent : Int := decimal.exponent + all.length - 1
  let digits := (all.reverse.dropWhile (· == Digit.zero)).reverse
  match SomeDigits.ofList? digits with
  | none => positional x.negative [.zero] 0
  | some nonempty =>
    if -5 ≤ exponent ∧ exponent ≤ 15 then positional x.negative digits exponent
    else exponential x.negative nonempty exponent

end NumberLiteral

def Number.toLiteral : Number → NumberLiteral
  | .integer value => .ofInt value
  | .double value => .ofBinary64 value

end Jmap.Json
