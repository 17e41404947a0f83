import Jmap.Id
import Jmap.Integer
import Jmap.Json.Record

/-! What the server says about an uploaded blob. -/
namespace Jmap
open Json

structure BlobInfo where
  accountId : Id
  blobId : Id
  contentType : String
  size : UnsignedInt
  deriving DecidableEq

namespace BlobInfo

instance : Writable BlobInfo where
  encode info := encodeMembers
    [("accountId",encode info.accountId),("blobId",encode info.blobId),
     ("type",encode info.contentType),("size",encode info.size)]

def reader : Reader BlobInfo :=
  .record
    [.of "accountId" .required Id.reader fun accountId info => {info with accountId},
     .of "blobId" .required Id.reader fun blobId info => {info with blobId},
     .of "type" .required .text fun contentType info => {info with contentType},
     .of "size" .required UnsignedInt.reader fun size info => {info with size}]
    ⟨⟨""⟩,⟨""⟩,"",⟨0⟩⟩

end BlobInfo
end Jmap
