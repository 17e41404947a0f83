import Jmap.Collation
import Jmap.Error
import Jmap.Id
import Jmap.Integer
import Jmap.Json.Record
import Jmap.Template

/-! The session resource: what the server supports, which accounts can be reached,
and where requests go. The limits of the core capability are mandatory. -/
namespace Jmap
open Json

/-- Limits of the server; those it does not state are zero. -/
structure CoreCapability where
  maxSizeUpload : UnsignedInt
  maxConcurrentUpload : UnsignedInt
  maxSizeRequest : UnsignedInt
  maxConcurrentRequests : UnsignedInt
  maxCallsInRequest : UnsignedInt
  maxObjectsInGet : UnsignedInt
  maxObjectsInSet : UnsignedInt
  collationAlgorithms : List Collation
  deriving DecidableEq

namespace CoreCapability

instance : Writable CoreCapability where
  encode core := encodeMembers
    [("maxSizeUpload",encode core.maxSizeUpload),
     ("maxConcurrentUpload",encode core.maxConcurrentUpload),
     ("maxSizeRequest",encode core.maxSizeRequest),
     ("maxConcurrentRequests",encode core.maxConcurrentRequests),
     ("maxCallsInRequest",encode core.maxCallsInRequest),
     ("maxObjectsInGet",encode core.maxObjectsInGet),
     ("maxObjectsInSet",encode core.maxObjectsInSet),
     ("collationAlgorithms",encode core.collationAlgorithms)]

def fields : List (RecordField CoreCapability) :=
  [.of "maxSizeUpload" .defaulted UnsignedInt.reader fun n core => {core with maxSizeUpload := n},
   .of "maxConcurrentUpload" .defaulted UnsignedInt.reader fun n core => {core with maxConcurrentUpload := n},
   .of "maxSizeRequest" .defaulted UnsignedInt.reader fun n core => {core with maxSizeRequest := n},
   .of "maxConcurrentRequests" .defaulted UnsignedInt.reader fun n core => {core with maxConcurrentRequests := n},
   .of "maxCallsInRequest" .defaulted UnsignedInt.reader fun n core => {core with maxCallsInRequest := n},
   .of "maxObjectsInGet" .defaulted UnsignedInt.reader fun n core => {core with maxObjectsInGet := n},
   .of "maxObjectsInSet" .defaulted UnsignedInt.reader fun n core => {core with maxObjectsInSet := n},
   .of "collationAlgorithms" .defaulted (.list Collation.reader) fun names core =>
     {core with collationAlgorithms := names}]

def blank : CoreCapability := ⟨⟨0⟩,⟨0⟩,⟨0⟩,⟨0⟩,⟨0⟩,⟨0⟩,⟨0⟩,[]⟩

def reader : Reader CoreCapability := .record fields blank

end CoreCapability

structure Account where
  name : String
  isPersonal : Bool
  isReadOnly : Bool
  accountCapabilities : SortedMap Value

namespace Account

instance : Writable Account where
  encode account := encodeMembers
    [("name",encode account.name),("isPersonal",encode account.isPersonal),
     ("isReadOnly",encode account.isReadOnly),
     ("accountCapabilities",encode account.accountCapabilities)]

def fields : List (RecordField Account) :=
  [.of "name" .defaulted .text fun name account => {account with name},
   .of "isPersonal" .defaulted .bool fun isPersonal account => {account with isPersonal},
   .of "isReadOnly" .defaulted .bool fun isReadOnly account => {account with isReadOnly},
   .of "accountCapabilities" .defaulted (.sortedMap .value) fun capabilities account =>
     {account with accountCapabilities := capabilities}]

def reader : Reader Account := .record fields ⟨"",false,false,.empty⟩

end Account

/-- Capabilities are kept as received; the core capability is kept decoded too. -/
structure Session where
  capabilities : SortedMap Value
  core : CoreCapability
  accounts : SortedMap Account
  primaryAccounts : SortedMap Id
  username : String
  apiUrl : String
  downloadUrl : String
  uploadUrl : String
  eventSourceUrl : String
  state : String

namespace Session

instance : Writable Session where
  encode session := encodeMembers
    [("capabilities",encode session.capabilities),
     ("accounts",Id.encodeMap session.accounts),
     ("primaryAccounts",encode session.primaryAccounts),
     ("username",encode session.username),
     ("apiUrl",encode session.apiUrl),
     ("downloadUrl",encode session.downloadUrl),
     ("uploadUrl",encode session.uploadUrl),
     ("eventSourceUrl",encode session.eventSourceUrl),
     ("state",encode session.state)]

/-- All fields but the decoded core capability, which is left as it is. -/
def fields : List (RecordField Session) :=
  [.of "capabilities" .defaulted (.sortedMap .value) fun capabilities session => {session with capabilities},
   .of "accounts" .defaulted (Id.mapReader Account.reader) fun accounts session => {session with accounts},
   .of "primaryAccounts" .defaulted (.sortedMap Id.reader) fun primaryAccounts session => {session with primaryAccounts},
   .of "username" .defaulted .text fun username session => {session with username},
   .of "apiUrl" .defaulted .text fun apiUrl session => {session with apiUrl},
   .of "downloadUrl" .defaulted .text fun downloadUrl session => {session with downloadUrl},
   .of "uploadUrl" .defaulted .text fun uploadUrl session => {session with uploadUrl},
   .of "eventSourceUrl" .defaulted .text fun eventSourceUrl session => {session with eventSourceUrl},
   .of "state" .defaulted .text fun state session => {session with state}]

def blank : Session := ⟨.empty,.blank,.empty,.empty,"","","","","",""⟩

def withCore (session : Session) : Except Defect Session :=
  match session.capabilities.find? coreUri with
  | none => .error (.violation .missingCoreCapability)
  | some value => do
    let core ← (CoreCapability.reader.ofValue value).mapError .nested
    return {session with core}

/-- The core capability is decoded after everything else has been read. -/
def reader : Reader Session := (Reader.record fields blank).andThen withCore

def hasCapability (session : Session) (uri : String) : Bool := session.capabilities.contains uri

/-- None where the server does not offer the capability. -/
def capability? {A : Type} (session : Session) (read : Value → Except Defect A) (uri : String) :
    Except Error (Option A) :=
  match session.capabilities.find? uri with
  | none => .ok none
  | some value => some <$> (read value).mapError .serialization

def primaryAccount? (session : Session) (uri : String) : Option Id := session.primaryAccounts.find? uri

def uploadUrlFor (session : Session) (account : Id) : String :=
  Template.expand [("accountId",account.text)] session.uploadUrl

def downloadUrlFor (session : Session) (account blob : Id) (name contentType : String) : String :=
  Template.expand [("accountId",account.text),("blobId",blob.text),("name",name),("type",contentType)]
    session.downloadUrl

end Session
end Jmap
