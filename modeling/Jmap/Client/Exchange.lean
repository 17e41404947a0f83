import Jmap.Error
import Jmap.Json.Bytes
import Jmap.Text.Blank

/-! Exchanges with a server: one request, one reply. -/
namespace Jmap
open Json

inductive HttpMethod where
  | get | post
  deriving DecidableEq

structure HttpRequest where
  method : HttpMethod
  url : String
  authorization : String
  contentType : Option String
  body : ByteArray

namespace HttpRequest

def get (url authorization : String) : HttpRequest := ⟨.get,url,authorization,none,.empty⟩

def post (url authorization contentType : String) (body : ByteArray) : HttpRequest :=
  ⟨.post,url,authorization,some contentType,body⟩

end HttpRequest

structure HttpReply where
  status : Nat
  contentType : Option String
  body : ByteArray

namespace HttpReply

def isSuccess (reply : HttpReply) : Bool := 200 ≤ reply.status && reply.status < 300

/-- A media type without its parameters, in lower case. -/
def essence (contentType : String) : String :=
  String.ofList ((Text.trim (contentType.toList.takeWhile (· != ';'))).map Char.toLower)

def isJson (reply : HttpReply) : Bool :=
  reply.contentType.any fun contentType =>
    ["application/json","application/problem+json"].contains (essence contentType)

/-- What a reply without success means: the problem it holds, or else its status. -/
def toError (reply : HttpReply) : Error :=
  if reply.isJson then
    match Problem.reader.ofBytes reply.body with
    | .ok problem => .request problem
    | .error _ => .http reply.status
  else .http reply.status

end HttpReply

inductive ExchangeKind where
  | session | api | upload | download
  deriving DecidableEq

def ExchangeKind.label : ExchangeKind → String
  | .session => "session"
  | .api => "api"
  | .upload => "upload"
  | .download => "download"

structure Exchange where
  kind : ExchangeKind
  request : HttpRequest
  result : Except Error HttpReply

/-- Answers a request, knowing those made before it. -/
abbrev Transport := List HttpRequest → HttpRequest → Except Error HttpReply

/-- Answers each request with the next of the replies, whatever it asks. -/
def Transport.scripted (replies : List (Except Error HttpReply)) : Transport :=
  fun earlier _ => replies[earlier.length]?.getD (.error (.transport "no scripted reply"))

end Jmap
