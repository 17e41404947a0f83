/-! Texts inside a URL: the bytes of all but unreserved characters are written as a
percent sign and two hexadecimal digits. -/
namespace Jmap.Text

/-- Letters, digits, hyphen, point, underscore and tilde of ASCII. -/
def isUnreserved (byte : UInt8) : Bool :=
  let c := Char.ofNat byte.toNat
  byte < 0x80 && (c.isAlphanum || c == '-' || c == '.' || c == '_' || c == '~')

def upperHexDigit (n : Nat) : Char := (Nat.digitChar n).toUpper

def percentByte (byte : UInt8) : List Char :=
  if isUnreserved byte then [Char.ofNat byte.toNat]
  else ['%',upperHexDigit (byte.toNat / 16),upperHexDigit (byte.toNat % 16)]

def percentEncode (text : String) : List Char := text.toUTF8.toList.flatMap percentByte

end Jmap.Text
