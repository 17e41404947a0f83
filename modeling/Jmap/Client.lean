import Jmap.BlobInfo
import Jmap.Client.Exchange
import Jmap.Client.Ledger
import Jmap.Response
import Jmap.Session

/-! A client of one server. It fetches the session when it is first needed, keeps it,
and respects its limits. -/
namespace Jmap
open Json

structure Client (A : Type) where
  transport : Transport
  sessionEndpoint : String
  authorization : String
  registry : Registry A
  /-- The name under which measurements are kept, if they are. -/
  scope : Option String

structure ClientState where
  session : Option Session
  /-- Oldest first. -/
  log : List Exchange
  ledger : Ledger

namespace ClientState

def initial : ClientState := ⟨none,[],[]⟩

def requests (state : ClientState) : List HttpRequest := state.log.map (·.request)

end ClientState

/-- A step of a client; what it has done so far stays done if it fails. -/
abbrev Action (B : Type) := ExceptT Error (StateM ClientState) B

namespace Client

def jsonType : String := "application/json"
def octetStream : String := "application/octet-stream"
def echoMethod : String := "Core/echo"

variable {A B : Type}

/-- Decoders of `registry` replace those that the client has for the same methods. -/
def enable (client : Client A) (registry : Registry A) : Client A :=
  {client with registry := client.registry.merge registry}

def record (client : Client A) (measurements : List Measurement) : Action Unit :=
  if client.scope.isSome then
    modify fun state => {state with ledger := state.ledger ++ measurements}
  else pure ()

def recordExchange (client : Client A) (kind : ExchangeKind) (success : Bool) : Action Unit :=
  client.record [.request kind success,.duration kind success]

def decoded (client : Client A) (result : Except Error B) : Action B :=
  match result with
  | .ok value => pure value
  | .error error => do
    client.record [.failure .serialization]
    throw error

/-- One exchange; a reply without success is an error. -/
def exchange (client : Client A) (kind : ExchangeKind) (request : HttpRequest) : Action HttpReply := do
  let result := client.transport (← get).requests request
  modify fun state => {state with log := state.log ++ [⟨kind,request,result⟩]}
  match result with
  | .error error =>
    client.recordExchange kind false
    client.record [.failure .transport]
    throw error
  | .ok reply =>
    client.recordExchange kind reply.isSuccess
    if reply.isSuccess then return reply
    match reply.toError with
    | .request problem =>
      client.record [.failure .request]
      throw (.request problem)
    | error =>
      client.record [.failure .http]
      throw error

/-- Fetches the session and keeps it in place of the one before. -/
def updateSession (client : Client A) : Action Session := do
  if client.sessionEndpoint = "" then throw .sessionEndpointMissing
  let reply ← client.exchange .session (.get client.sessionEndpoint client.authorization)
  let session ← client.decoded ((Session.reader.ofBytes reply.body).mapError .serialization)
  modify fun state => {state with session := some session}
  client.record [.sessionRefresh]
  return session

def cachedSession (_ : Client A) : Action (Option Session) := return (← get).session

/-- What is kept counts, also where it has just been fetched. -/
def session (client : Client A) : Action Session := do
  match ← client.cachedSession with
  | some session => return session
  | none =>
    let fetched ← client.updateSession
    return (← client.cachedSession).getD fetched

def checkLimit (client : Client A) (name : String) (amount : Nat) (limit : UnsignedInt) : Action Unit :=
  if limit.value < amount then do
    client.record [.failure .limit]
    throw (.request (.limit name))
  else pure ()

def responseOf [Writable B] (registry : Registry B) (reply : HttpReply) : Except Error (Response B) :=
  match String.fromUTF8? reply.body with
  | none => .error (.serialization .malformed)
  | some text => Response.decode registry text

/-- The calls are counted before the request is encoded, and measured once the
server has accepted them. -/
def sendWith [Writable B] (client : Client A) (registry : Registry B) (request : Request B) :
    Action (Response B) := do
  if client.sessionEndpoint = "" then throw .sessionEndpointMissing
  let session ← client.session
  client.checkLimit "maxCallsInRequest" request.calls.length session.core.maxCallsInRequest
  let body ← (request.encode : Except Error Raw)
  let reply ← client.exchange .api
    (.post session.apiUrl client.authorization jsonType body.text.toUTF8)
  client.record [.calls request.calls.length]
  client.decoded (responseOf registry reply)

def send [Writable A] (client : Client A) (request : Request A) : Action (Response A) :=
  client.sendWith client.registry request

def echoRequest : Request (SortedMap Value) :=
  (Request.new [coreUri]).pushCall ⟨echoMethod,"echo0",.empty⟩

def echoRegistry : Registry (SortedMap Value) :=
  SortedMap.empty.insert echoMethod (.typed (Reader.sortedMap .value))

def echo (client : Client A) : Action Unit := do
  let response ← client.sendWith echoRegistry echoRequest
  match response.entries with
  | [] => throw (.serialization (.described "empty methodResponses for Core/echo"))
  | .success _ :: _ => return ()
  | .failure error :: _ => throw (.method error)

def upload (client : Client A) (account : Id) (contentType : String) (data : ByteArray) :
    Action BlobInfo := do
  let session ← client.session
  client.checkLimit "maxSizeUpload" data.size session.core.maxSizeUpload
  let reply ← client.exchange .upload
    (.post (session.uploadUrlFor account) client.authorization contentType data)
  client.decoded ((BlobInfo.reader.ofBytes reply.body).mapError .serialization)

def downloadAs (client : Client A) (account blob : Id) (name contentType : String) :
    Action ByteArray := do
  let session ← client.session
  let reply ← client.exchange .download
    (.get (session.downloadUrlFor account blob name contentType) client.authorization)
  return reply.body

/-- As bytes of no particular type, under the blob's own id. -/
def download (client : Client A) (account blob : Id) : Action ByteArray :=
  client.downloadAs account blob blob.text octetStream

end Client
end Jmap
