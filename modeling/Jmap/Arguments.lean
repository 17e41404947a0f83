import Jmap.Date
import Jmap.Registry
import Jmap.Id
import Jmap.Integer
import Jmap.Json.Record

/-! Arguments of methods, understood to different degrees, and their decoders. -/
namespace Jmap
open Json

/-- Arguments of methods that list the objects of an account. -/
structure QueryArguments where
  accountId : Id
  ids : Option (List Id)
  position : SignedInt
  limit : Option UnsignedInt
  after : Option UtcDate
  before : Option Date
  deriving DecidableEq

namespace QueryArguments

instance : Writable QueryArguments where
  encode arguments := encodeMembers
    [("accountId",encode arguments.accountId),("ids",encode arguments.ids),
     ("position",encode arguments.position),("limit",encode arguments.limit),
     ("after",encode arguments.after),("before",encode arguments.before)]

def reader : Reader QueryArguments :=
  .record
    [.of "accountId" .required Id.reader fun accountId arguments => {arguments with accountId},
     .of "ids" .optional (.nullable (.list Id.reader)) fun ids arguments => {arguments with ids},
     .of "position" .defaulted SignedInt.reader fun position arguments => {arguments with position},
     .of "limit" .optional (.nullable UnsignedInt.reader) fun limit arguments => {arguments with limit},
     .of "after" .optional (.nullable UtcDate.reader) fun after arguments => {arguments with after},
     .of "before" .optional (.nullable Date.reader) fun before arguments => {arguments with before}]
    ⟨⟨""⟩,none,⟨0⟩,none,none,none⟩

end QueryArguments

inductive Arguments where
  | object (members : SortedMap Value)
  | value (value : Value)
  /-- As spelled in the text. -/
  | verbatim (text : Raw)
  /-- Only the size of the text in bytes. -/
  | size (bytes : Nat)
  | query (arguments : QueryArguments)

namespace Arguments

instance : Writable Arguments where
  encode
    | .object members => encode members
    | .value content => encode content
    | .verbatim text => encode text
    | .size bytes => .ok (.ofInt bytes)
    | .query arguments => encode arguments

def objectDecoder : Decoder Arguments := .typed ((Reader.sortedMap .value).map .object)

def valueDecoder : Decoder Arguments := .typed (Reader.value.map .value)

def verbatimDecoder : Decoder Arguments := fun text => .ok (.verbatim text)

def sizeDecoder : Decoder Arguments := fun text => .ok (.size text.text.utf8ByteSize)

def queryDecoder : Decoder Arguments := .typed (QueryArguments.reader.map .query)

def refusingDecoder : Decoder Arguments := fun _ => .error (.internal "decoder failed")

end Arguments
end Jmap
