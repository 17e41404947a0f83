/-! Number literals with the spelling they have in the text: sign, digits before
and after the point, exponent mark, exponent sign, leading zeros of the exponent. -/
namespace Jmap.Json

abbrev Digit := Fin 10

namespace Digit

def zero : Digit := ⟨0,by decide⟩

def char (digit : Digit) : Char := Char.ofNat ('0'.toNat + digit)

def ofChar? (c : Char) : Option Digit :=
  if inside : '0'.toNat ≤ c.toNat ∧ c.toNat ≤ '9'.toNat then
    some ⟨c.toNat - '0'.toNat,by
      have upper : '9'.toNat = '0'.toNat + 9 := rfl
      omega⟩
  else none

end Digit

namespace Digits

def print (digits : List Digit) : List Char := digits.map Digit.char

def scan : List Char → List Digit × List Char
  | [] => ([],[])
  | c :: rest =>
    match Digit.ofChar? c with
    | none => ([],c :: rest)
    | some digit =>
      let (digits,rest) := scan rest
      (digit :: digits,rest)

def value (digits : List Digit) : Nat := digits.foldl (fun (value : Nat) digit => value * 10 + digit.val) 0

end Digits

structure SomeDigits where
  first : Digit
  rest : List Digit
  deriving DecidableEq

namespace SomeDigits

def toList (digits : SomeDigits) : List Digit := digits.first :: digits.rest

def ofList? : List Digit → Option SomeDigits
  | [] => none
  | first :: rest => some ⟨first,rest⟩

end SomeDigits

/-- The sign of an exponent, where one is written. -/
inductive Sign where
  | unsigned | plus | minus
  deriving DecidableEq

def Sign.print : Sign → List Char
  | .unsigned => []
  | .plus => ['+']
  | .minus => ['-']

structure Exponent where
  capital : Bool
  sign : Sign
  digits : SomeDigits
  deriving DecidableEq

def Exponent.print (exponent : Exponent) : List Char :=
  (if exponent.capital then 'E' else 'e') :: exponent.sign.print ++ Digits.print exponent.digits.toList

def Exponent.value (exponent : Exponent) : Int :=
  let size : Int := Digits.value exponent.digits.toList
  if exponent.sign = .minus then -size else size

/-- The digits before the point: zero stands alone. -/
structure Whole where
  digits : SomeDigits
  noLeadingZero : digits.first = .zero → digits.rest = []
  deriving DecidableEq

namespace Whole

def zero : Whole := ⟨⟨.zero,[]⟩,fun _ => rfl⟩

/-- Leading zeros are left out. -/
def ofDigits : List Digit → Whole
  | [] => zero
  | first :: rest =>
    if leading : first = .zero then ofDigits rest
    else ⟨⟨first,rest⟩,fun none => absurd none leading⟩

end Whole

namespace Digits

/-- The decimal digits of `n` before `tail`, at most `fuel` of them. -/
def pushNat : Nat → Nat → List Digit → List Digit
  | 0,_,tail => tail
  | fuel + 1,n,tail =>
    let digits := Fin.ofNat 10 n :: tail
    if n / 10 = 0 then digits else pushNat fuel (n / 10) digits

def ofNat (n : Nat) : List Digit := pushNat (n + 1) n []

end Digits

structure NumberLiteral where
  negative : Bool
  whole : Whole
  fraction : Option SomeDigits
  exponent : Option Exponent
  deriving DecidableEq

namespace NumberLiteral

def printFraction : Option SomeDigits → List Char
  | none => []
  | some digits => '.' :: Digits.print digits.toList

def printExponent : Option Exponent → List Char
  | none => []
  | some exponent => exponent.print

def printUnsigned (literal : NumberLiteral) : List Char :=
  Digits.print literal.whole.digits.toList ++
    (printFraction literal.fraction ++ printExponent literal.exponent)

def print (literal : NumberLiteral) : List Char :=
  if literal.negative then '-' :: literal.printUnsigned else literal.printUnsigned

def scanWhole (cs : List Char) : Option (Whole × List Char) := do
  let (digits,rest) := Digits.scan cs
  let digits ← SomeDigits.ofList? digits
  if noLeadingZero : digits.first = .zero → digits.rest = [] then return (⟨digits,noLeadingZero⟩,rest)
  else none

/-- A point has to have digits after it. -/
def scanFraction : List Char → Option (Option SomeDigits × List Char)
  | '.' :: rest => do
    let (digits,rest) := Digits.scan rest
    return (some (← SomeDigits.ofList? digits),rest)
  | rest => some (none,rest)

def scanSign : List Char → Sign × List Char
  | '+' :: rest => (.plus,rest)
  | '-' :: rest => (.minus,rest)
  | rest => (.unsigned,rest)

def scanExponentDigits (capital : Bool) (cs : List Char) : Option (Option Exponent × List Char) := do
  let (sign,rest) := scanSign cs
  let (digits,rest) := Digits.scan rest
  return (some ⟨capital,sign,← SomeDigits.ofList? digits⟩,rest)

/-- An exponent mark has to have digits after it. -/
def scanExponent : List Char → Option (Option Exponent × List Char)
  | 'e' :: rest => scanExponentDigits false rest
  | 'E' :: rest => scanExponentDigits true rest
  | rest => some (none,rest)

def scanUnsigned (negative : Bool) (cs : List Char) : Option (NumberLiteral × List Char) := do
  let (whole,rest) ← scanWhole cs
  let (fraction,rest) ← scanFraction rest
  let (exponent,rest) ← scanExponent rest
  return (⟨negative,whole,fraction,exponent⟩,rest)

def scan : List Char → Option (NumberLiteral × List Char)
  | '-' :: rest => scanUnsigned true rest
  | rest => scanUnsigned false rest

def isInteger (literal : NumberLiteral) : Bool := literal.fraction.isNone && literal.exponent.isNone

def ofInt (n : Int) : NumberLiteral :=
  ⟨decide (n < 0),.ofDigits (Digits.ofNat n.natAbs),none,none⟩

end NumberLiteral
end Jmap.Json
