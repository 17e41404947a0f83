import Jmap.Error
import Jmap.Id

/-! Identifiers from random bytes, drawn until the identifier is safe. -/
namespace Jmap.Id

/-- Lower-case hexadecimal digits, two for each byte. -/
def ofBytes {count : Nat} (bytes : Vector UInt8 count) : Id :=
  ⟨String.ofList (bytes.toList.flatMap fun byte =>
    [Nat.digitChar (byte.toNat / 16),Nat.digitChar (byte.toNat % 16)])⟩

/-- A draw from a source of random bytes, or the reason why it failed. -/
abbrev Draw := Except String (Vector UInt8 32)

/-- The first draw whose digits are a safe identifier, with the draws left over.
A failed draw ends the search, and none says that the draws ran out. -/
def random? : List Draw → Option (Except Error Id × List Draw)
  | [] => none
  | .error reason :: rest => some (.error (.entropy reason),rest)
  | .ok bytes :: rest =>
    let id := ofBytes bytes
    if id.isValid && id.isSafe then some (.ok id,rest) else random? rest

end Jmap.Id
