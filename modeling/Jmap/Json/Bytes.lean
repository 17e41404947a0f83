import Jmap.Json.Reader

/-! JSON from bytes. Bytes that are no UTF-8 are a fault only of the string literal
in which they stand, which can be skipped but not read. -/
namespace Jmap.Json

def plainPieces? (bytes : List UInt8) : Option Literal := do
  let text ← String.fromUTF8? ⟨bytes.toArray⟩
  text.toList.mapM fun c => if allowed : isPlain c then some (.plain c allowed) else none

namespace Literal

/-- Half a surrogate pair, which has no text. -/
def unreadable : Literal := [.unicode ⟨'d',rfl⟩ ⟨'c',rfl⟩ ⟨'0',rfl⟩ ⟨'0',rfl⟩]

/-- The plain pieces stand for bytes; `run` are those met since the last escape. -/
def ofByteRuns? (run : List UInt8) : Literal → Option Literal
  | [] => plainPieces? run.reverse
  | .plain c _ :: rest => ofByteRuns? (UInt8.ofNat c.toNat :: run) rest
  | piece :: rest => do
    let before ← plainPieces? run.reverse
    return before ++ piece :: (← ofByteRuns? [] rest)

def ofByteLiteral (literal : Literal) : Literal := (ofByteRuns? [] literal).getD unreadable

end Literal

mutual
/-- Decodes the literals of a tree whose characters stand for bytes. -/
def Node.ofByteNode : Node → Node
  | .string literal => .string literal.ofByteLiteral
  | .array items => .array items.ofByteItems
  | .object members => .object members.ofByteMembers
  | node => node
def Items.ofByteItems : Items → Items
  | .last before item after => .last before item.ofByteNode after
  | .more before item after rest => .more before item.ofByteNode after rest.ofByteItems
  | .cut before item => .cut before item.ofByteNode
def Members.ofByteMembers : Members → Members
  | .last label value after => .last {label with key := label.key.ofByteLiteral} value.ofByteNode after
  | .more label value after rest =>
    .more {label with key := label.key.ofByteLiteral} value.ofByteNode after rest.ofByteMembers
  | .cut label value => .cut {label with key := label.key.ofByteLiteral} value.ofByteNode
  | .stop => .stop
end

def Document.ofBytes (bytes : ByteArray) : Document :=
  match String.fromUTF8? bytes with
  | some text => .ofText text
  | none =>
    let document := Document.ofChars (bytes.toList.map fun byte => Char.ofNat byte.toNat)
    {document with root := document.root.ofByteNode}

def Reader.ofBytes {A : Type} (reader : Reader A) (bytes : ByteArray) : Except Defect A :=
  reader.ofDocument (.ofBytes bytes)

end Jmap.Json
