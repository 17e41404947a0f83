/-! String literals with the spelling they have in the text: which characters
stand for themselves and which are escaped, and how. Every text has a shortest
literal; a literal has no text exactly when it holds half a surrogate pair. -/
namespace Jmap.Json

/-- Control characters, quote and backslash have to be escaped. -/
def isPlain (c : Char) : Bool := 0x20 ≤ c.toNat && c != '"' && c != '\\'

inductive Escape where
  | quote | backslash | slash | backspace | formFeed | lineFeed | carriageReturn | tab
  deriving DecidableEq

def Escape.letter : Escape → Char
  | .quote => '"'
  | .backslash => '\\'
  | .slash => '/'
  | .backspace => 'b'
  | .formFeed => 'f'
  | .lineFeed => 'n'
  | .carriageReturn => 'r'
  | .tab => 't'

def Escape.meaning : Escape → Char
  | .quote => '"'
  | .backslash => '\\'
  | .slash => '/'
  | .backspace => '\x08'
  | .formFeed => '\x0c'
  | .lineFeed => '\n'
  | .carriageReturn => '\r'
  | .tab => '\t'

def Escape.ofLetter? : Char → Option Escape
  | '"' => some .quote
  | '\\' => some .backslash
  | '/' => some .slash
  | 'b' => some .backspace
  | 'f' => some .formFeed
  | 'n' => some .lineFeed
  | 'r' => some .carriageReturn
  | 't' => some .tab
  | _ => none

def hexValue? (c : Char) : Option Nat :=
  if '0' ≤ c ∧ c ≤ '9' then some (c.toNat - '0'.toNat)
  else if 'a' ≤ c ∧ c ≤ 'f' then some (c.toNat - 'a'.toNat + 10)
  else if 'A' ≤ c ∧ c ≤ 'F' then some (c.toNat - 'A'.toNat + 10)
  else none

/-- A hexadecimal digit in the case in which it is written. -/
structure HexDigit where
  char : Char
  isHex : (hexValue? char).isSome
  deriving DecidableEq

namespace HexDigit

def ofChar? (c : Char) : Option HexDigit :=
  if isHex : (hexValue? c).isSome then some ⟨c,isHex⟩ else none

def value (digit : HexDigit) : Nat := (hexValue? digit.char).get digit.isHex

theorem digitChar_isHex : ∀ n : Fin 16, (hexValue? (Nat.digitChar n)).isSome := by decide

/-- Lower case. -/
def ofFin (n : Fin 16) : HexDigit := ⟨Nat.digitChar n,digitChar_isHex n⟩

end HexDigit

inductive Piece where
  | plain (c : Char) (allowed : isPlain c)
  | escape (short : Escape)
  | unicode (a b c d : HexDigit)
  deriving DecidableEq

def Piece.print : Piece → List Char
  | .plain c _ => [c]
  | .escape short => ['\\',short.letter]
  | .unicode a b c d => ['\\','u',a.char,b.char,c.char,d.char]

/-- What stands between the quotes. -/
abbrev Literal := List Piece

namespace Literal

def print (literal : Literal) : List Char := '"' :: literal.flatMap Piece.print ++ ['"']

/-- Reads from behind the opening quote to behind the closing one. -/
def scan : List Char → Option (Literal × List Char)
  | [] => none
  | '"' :: rest => some ([],rest)
  | '\\' :: 'u' :: a :: b :: c :: d :: rest => do
    let piece := Piece.unicode (← HexDigit.ofChar? a) (← HexDigit.ofChar? b)
      (← HexDigit.ofChar? c) (← HexDigit.ofChar? d)
    let (pieces,rest) ← scan rest
    return (piece :: pieces,rest)
  | '\\' :: letter :: rest => do
    let short ← Escape.ofLetter? letter
    let (pieces,rest) ← scan rest
    return (.escape short :: pieces,rest)
  | c :: rest =>
    if allowed : isPlain c then do
      let (pieces,rest) ← scan rest
      return (.plain c allowed :: pieces,rest)
    else none

def codeUnit (a b c d : HexDigit) : Nat :=
  ((a.value * 16 + b.value) * 16 + c.value) * 16 + d.value

def isHighSurrogate (unit : Nat) : Bool := 0xD800 ≤ unit && unit < 0xDC00
def isLowSurrogate (unit : Nat) : Bool := 0xDC00 ≤ unit && unit < 0xE000

def meaning? : Literal → Option (List Char)
  | [] => some []
  | .plain c _ :: rest => (c :: ·) <$> meaning? rest
  | .escape short :: rest => (short.meaning :: ·) <$> meaning? rest
  | .unicode a b c d :: rest =>
    let unit := codeUnit a b c d
    if isHighSurrogate unit then
      match rest with
      | .unicode e f g h :: rest =>
        let low := codeUnit e f g h
        if isLowSurrogate low then
          (Char.ofNat (0x10000 + (unit - 0xD800) * 0x400 + (low - 0xDC00)) :: ·) <$> meaning? rest
        else none
      | _ => none
    else if isLowSurrogate unit then none
    else (Char.ofNat unit :: ·) <$> meaning? rest

/-- The text, unless half a surrogate pair stands in the literal. -/
def text? (literal : Literal) : Option String := String.ofList <$> meaning? literal

/-- Only what has to be escaped is escaped, in two characters where possible. -/
def spell (c : Char) : Piece :=
  if c = '\x08' then .escape .backspace
  else if c = '\x0c' then .escape .formFeed
  else if c = '\n' then .escape .lineFeed
  else if c = '\r' then .escape .carriageReturn
  else if c = '\t' then .escape .tab
  else if c = '"' then .escape .quote
  else if c = '\\' then .escape .backslash
  else if allowed : isPlain c then .plain c allowed
  else .unicode (.ofFin 0) (.ofFin 0) (.ofFin (Fin.ofNat 16 (c.toNat / 16))) (.ofFin (Fin.ofNat 16 c.toNat))

def ofText (text : String) : Literal := text.toList.map spell

end Literal
end Jmap.Json
