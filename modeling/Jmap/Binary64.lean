/-! Finite binary floating-point numbers of 64 bits as exact quantities, with
rounding to the nearest such number, a half going to the even neighbour. -/
namespace Jmap

/-- `2^52`. -/
def leadingBit : Nat := 0x10000000000000

/-- The sizes are numbered upwards from zero: number `e * 2^52 + f` stands for
`f * 2^-1074` if `e` is zero and for `(2^52 + f) * 2^(e - 1075)` otherwise. -/
structure Binary64 where
  negative : Bool
  size : Fin (2047 * leadingBit)
  deriving DecidableEq

namespace Binary64

def zero : Binary64 := ⟨false,⟨0,by decide⟩⟩

instance : Inhabited Binary64 := ⟨zero⟩

def neg (x : Binary64) : Binary64 := {x with negative := !x.negative}

def isZero (x : Binary64) : Bool := x.size.val == 0

def significand (x : Binary64) : Nat :=
  if x.size.val < leadingBit then x.size.val else leadingBit + x.size.val % leadingBit

/-- The size is `significand * 2^power`. -/
def power (x : Binary64) : Int :=
  if x.size.val < leadingBit then -1074 else (x.size.val / leadingBit : Nat) - 1075

/-- The size as a fraction. -/
def numerator (x : Binary64) : Nat := x.significand * Nat.pow 2 x.power.toNat

def denominator (x : Binary64) : Nat := Nat.pow 2 (-x.power).toNat

/-- `numerator / denominator` scaled by `base^-exponent`, as a fraction. -/
def scaled (base numerator denominator : Nat) (exponent : Int) : Nat × Nat :=
  (numerator * Nat.pow base (-exponent).toNat,denominator * Nat.pow base exponent.toNat)

/-- The largest `k` with `2^k * denominator ≤ numerator`, both being positive. -/
def floorLog2 (numerator denominator : Nat) : Int :=
  let estimate : Int := numerator.log2 - denominator.log2
  let (n,d) := scaled 2 numerator denominator estimate
  if d ≤ n then estimate else estimate - 1

/-- The quotient to the nearest whole number, a half to the even one. -/
def roundQuotient (numerator denominator : Nat) : Nat :=
  let quotient := numerator / denominator
  let twice := 2 * (numerator % denominator)
  if denominator < twice ∨ (twice = denominator ∧ quotient % 2 = 1) then quotient + 1 else quotient

/-- None where the result would be infinite. -/
def nearest? (negative : Bool) (numerator denominator : Nat) : Option Binary64 :=
  if numerator = 0 ∨ denominator = 0 then some ⟨negative,⟨0,by decide⟩⟩
  else
    let power := max (floorLog2 numerator denominator - 52) (-1074)
    let (n,d) := scaled 2 numerator denominator power
    let size := roundQuotient n d + (power + 1074).toNat * leadingBit
    if finite : size < 2047 * leadingBit then some ⟨negative,⟨size,finite⟩⟩ else none

def ofNat? (n : Nat) : Option Binary64 := nearest? false n 1

def mul? (x y : Binary64) : Option Binary64 :=
  nearest? (x.negative != y.negative) (x.numerator * y.numerator) (x.denominator * y.denominator)

/-- Division by zero gives zero; no caller divides by it. -/
def div? (x y : Binary64) : Option Binary64 :=
  nearest? (x.negative != y.negative) (x.numerator * y.denominator) (x.denominator * y.numerator)

end Binary64
end Jmap
