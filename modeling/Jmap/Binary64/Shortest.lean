import Jmap.Binary64

/-! The fewest decimal digits that denote a floating-point number, and of those
the digits nearest to it. -/
namespace Jmap.Binary64

/-- The numbers that round to a given size: twice the size is `centre * unit`,
and the ends lie half way to the neighbours. -/
structure Interval where
  low : Nat
  centre : Nat
  high : Nat
  denominator : Nat
  closed : Bool

/-- Below a power of two the neighbours are half as far apart, except at the
bottom of the range. -/
def interval (x : Binary64) : Interval :=
  let unit := Nat.pow 2 x.power.toNat
  let below := if x.size.val % leadingBit = 0 ∧ leadingBit < x.size.val then 1 else 2
  {low := (4 * x.significand - below) * unit,
   centre := 4 * x.significand * unit,
   high := (4 * x.significand + 2) * unit,
   denominator := 4 * x.denominator,
   closed := x.significand % 2 = 0}

/-- The largest `k` with `10^k * denominator ≤ numerator`, both being positive,
found from an estimate within `fuel` of it. -/
def floorLog10 (numerator denominator : Nat) : Nat → Int → Int
  | 0,estimate => estimate
  | fuel + 1,estimate =>
    let (n,d) := scaled 10 numerator denominator estimate
    if n < d then floorLog10 numerator denominator fuel (estimate - 1)
    else if 10 * d ≤ n then floorLog10 numerator denominator fuel (estimate + 1)
    else estimate

/-- Digits read as a whole number, and the power of ten by which they are scaled. -/
structure Decimal where
  digits : Nat
  exponent : Int
  deriving DecidableEq

namespace Interval

/-- Does `digits * 10^exponent` round to the number? -/
def contains (range : Interval) (decimal : Decimal) : Bool :=
  let up := Nat.pow 10 decimal.exponent.toNat
  let down := Nat.pow 10 (-decimal.exponent).toNat
  let n := decimal.digits * up * range.denominator
  if range.closed then decide (range.low * down ≤ n ∧ n ≤ range.high * down)
  else decide (range.low * down < n ∧ n < range.high * down)

/-- The two multiples of `10^exponent` around the number that round to it, the
nearer first; at the same distance the even one comes first. -/
def candidates (range : Interval) (exponent : Int) : List Decimal :=
  let (n,d) := scaled 10 range.centre range.denominator exponent
  let below : Decimal := ⟨n / d,exponent⟩
  let above : Decimal := ⟨n / d + 1,exponent⟩
  let twice := 2 * (n % d)
  let ordered :=
    if twice < d ∨ (twice = d ∧ below.digits % 2 = 0) then [below,above] else [above,below]
  ordered.filter range.contains

/-- Tries the exponents downwards. -/
def first (range : Interval) : Nat → Int → Decimal
  | 0,exponent => ⟨range.centre,exponent⟩
  | fuel + 1,exponent =>
    match range.candidates exponent with
    | decimal :: _ => decimal
    | [] => first range fuel (exponent - 1)

end Interval

/-- Seventeen digits always suffice. -/
def shortest (x : Binary64) : Decimal :=
  if x.isZero then ⟨0,0⟩
  else
    let range := x.interval
    let estimate := (floorLog2 range.centre range.denominator * 3) / 10
    range.first 18 (floorLog10 range.centre range.denominator 40 estimate)

end Jmap.Binary64
