import Jmap.Json.Writable
import Jmap.Json.Reader

/-! Codes of method errors. Codes that are not in the table are kept as they are. -/
namespace Jmap
open Json

inductive ErrorCode where
  | accountNotFound | accountNotSupportedByMethod | accountReadOnly | anchorNotFound
  | alreadyExists | cannotCalculateChanges | forbidden | fromAccountNotFound
  | fromAccountNotSupportedByMethod | invalidArguments | invalidPatch | invalidProperties
  | notFound | notJson | notRequest | overQuota
  | rateLimit | requestTooLarge | invalidResultReference | serverFail
  | serverPartialFail | serverUnavailable | singleton | stateMismatch
  | tooLarge | tooManyChanges | unknownCapability | unknownMethod
  | unsupportedFilter | unsupportedSort | willDestroy | mailboxHasChild
  | mailboxHasEmail | blobNotFound | tooManyKeywords | tooManyMailboxes
  | invalidEmail | tooManyRecipients | noRecipients | invalidRecipients
  | forbiddenMailFrom | forbiddenFrom | forbiddenToSend
  | other (code : String)
  deriving DecidableEq

namespace ErrorCode

def all : List ErrorCode :=
  [.accountNotFound,.accountNotSupportedByMethod,.accountReadOnly,.anchorNotFound,
   .alreadyExists,.cannotCalculateChanges,.forbidden,.fromAccountNotFound,
   .fromAccountNotSupportedByMethod,.invalidArguments,.invalidPatch,.invalidProperties,
   .notFound,.notJson,.notRequest,.overQuota,
   .rateLimit,.requestTooLarge,.invalidResultReference,.serverFail,
   .serverPartialFail,.serverUnavailable,.singleton,.stateMismatch,
   .tooLarge,.tooManyChanges,.unknownCapability,.unknownMethod,
   .unsupportedFilter,.unsupportedSort,.willDestroy,.mailboxHasChild,
   .mailboxHasEmail,.blobNotFound,.tooManyKeywords,.tooManyMailboxes,
   .invalidEmail,.tooManyRecipients,.noRecipients,.invalidRecipients,
   .forbiddenMailFrom,.forbiddenFrom,.forbiddenToSend]

def text : ErrorCode → String
  | .accountNotFound => "accountNotFound"
  | .accountNotSupportedByMethod => "accountNotSupportedByMethod"
  | .accountReadOnly => "accountReadOnly"
  | .anchorNotFound => "anchorNotFound"
  | .alreadyExists => "alreadyExists"
  | .cannotCalculateChanges => "cannotCalculateChanges"
  | .forbidden => "forbidden"
  | .fromAccountNotFound => "fromAccountNotFound"
  | .fromAccountNotSupportedByMethod => "fromAccountNotSupportedByMethod"
  | .invalidArguments => "invalidArguments"
  | .invalidPatch => "invalidPatch"
  | .invalidProperties => "invalidProperties"
  | .notFound => "notFound"
  | .notJson => "notJSON"
  | .notRequest => "notRequest"
  | .overQuota => "overQuota"
  | .rateLimit => "rateLimit"
  | .requestTooLarge => "requestTooLarge"
  | .invalidResultReference => "invalidResultReference"
  | .serverFail => "serverFail"
  | .serverPartialFail => "serverPartialFail"
  | .serverUnavailable => "serverUnavailable"
  | .singleton => "singleton"
  | .stateMismatch => "stateMismatch"
  | .tooLarge => "tooLarge"
  | .tooManyChanges => "tooManyChanges"
  | .unknownCapability => "unknownCapability"
  | .unknownMethod => "unknownMethod"
  | .unsupportedFilter => "unsupportedFilter"
  | .unsupportedSort => "unsupportedSort"
  | .willDestroy => "willDestroy"
  | .mailboxHasChild => "mailboxHasChild"
  | .mailboxHasEmail => "mailboxHasEmail"
  | .blobNotFound => "blobNotFound"
  | .tooManyKeywords => "tooManyKeywords"
  | .tooManyMailboxes => "tooManyMailboxes"
  | .invalidEmail => "invalidEmail"
  | .tooManyRecipients => "tooManyRecipients"
  | .noRecipients => "noRecipients"
  | .invalidRecipients => "invalidRecipients"
  | .forbiddenMailFrom => "forbiddenMailFrom"
  | .forbiddenFrom => "forbiddenFrom"
  | .forbiddenToSend => "forbiddenToSend"
  | .other code => code

def ofText (code : String) : ErrorCode := (all.find? (·.text == code)).getD (.other code)

def isKnown (code : ErrorCode) : Bool := all.contains code

def description? : ErrorCode → Option String
  | .accountNotFound => some
      "The accountId does not correspond to a valid account."
  | .accountNotSupportedByMethod => some
      ("The accountId given corresponds to a valid account, but the account does not support " ++
       "this method or data type.")
  | .accountReadOnly => some
      ("This method call would modify state in an account that is read-only (as returned on " ++
       "the corresponding Account object in the JMAP Session resource).")
  | .anchorNotFound => some
      "An anchor argument was supplied, but it cannot be found in the results of the query."
  | .alreadyExists => some
      ("The server forbids duplicates and the record already exists in the target account. An " ++
       "existingId property of type Id MUST be included on the error object with the id of the " ++
       "existing record.")
  | .cannotCalculateChanges => some
      "The server cannot calculate the changes from the state string given by the client."
  | .forbidden => some
      "The action would violate an ACL or other permissions policy."
  | .fromAccountNotFound => some
      "The fromAccountId does not correspond to a valid account."
  | .fromAccountNotSupportedByMethod => some
      ("The fromAccountId given corresponds to a valid account, but the account does not " ++
       "support this data type.")
  | .invalidArguments => some
      ("One of the arguments is of the wrong type or otherwise invalid, or a required argument " ++
       "is missing.")
  | .invalidPatch => some
      "The PatchObject given to update the record was not a valid patch."
  | .invalidProperties => some
      "The record given is invalid."
  | .notFound => some
      "The id given cannot be found."
  | .notJson => some
      ("The content type of the request was not application/json or the request did not parse " ++
       "as I-JSON.")
  | .notRequest => some
      "The request parsed as JSON but did not match the type signature of the Request object."
  | .overQuota => some
      ("The create would exceed a server-defined limit on the number or total size of objects " ++
       "of this type.")
  | .rateLimit => some
      ("Too many objects of this type have been created recently, and a server-defined rate " ++
       "limit has been reached. It may work if tried again later.")
  | .requestTooLarge => some
      ("The total number of actions exceeds the maximum number the server is willing to " ++
       "process in a single method call.")
  | .invalidResultReference => some
      ("The method used a result reference for one of its arguments, but this failed to " ++
       "resolve.")
  | .serverFail => some
      ("An unexpected or unknown error occurred during the processing of the call. The method " ++
       "call made no changes to the server's state.")
  | .serverPartialFail => some
      ("Some, but not all expected changes described by the method occurred. The client MUST " ++
       "re-synchronise impacted data to determine server state. Use of this error is strongly " ++
       "discouraged.")
  | .serverUnavailable => some
      ("Some internal server resource was temporarily unavailable. Attempting the same " ++
       "operation later (perhaps after a backoff with a random factor) may succeed.")
  | .singleton => some
      ("This is a singleton type, so you cannot create another one or destroy the existing " ++
       "one.")
  | .stateMismatch => some
      "An ifInState argument was supplied and it does not match the current state."
  | .tooLarge => some
      ("The action would result in an object that exceeds a server-defined limit for the " ++
       "maximum size of a single object of this type.")
  | .tooManyChanges => some
      "There are more changes than the client's maxChanges argument."
  | .unknownCapability => some
      ("The client included a capability in the \"using\" property of the request that the " ++
       "server does not support.")
  | .unknownMethod => some
      "The server does not recognise this method name."
  | .unsupportedFilter => some
      "The filter is syntactically valid, but the server cannot process it."
  | .unsupportedSort => some
      ("The sort is syntactically valid, but includes a property the server does not support " ++
       "sorting on, or a collation method it does not recognise.")
  | .willDestroy => some
      ("The client requested an object be both updated and destroyed in the same /set request, " ++
       "and the server has decided to therefore ignore the update.")
  | .mailboxHasChild => some
      ("The mailbox still has at least one child mailbox. The client MUST remove these before " ++
       "it can delete the parent mailbox.")
  | .mailboxHasEmail => some
      ("The mailbox has at least one message assigned to it and the onDestroyRemoveMessages " ++
       "argument was false.")
  | .blobNotFound => some
      "At least one blob id referenced in the object doesn't exist."
  | .tooManyKeywords => some
      "The change to the email's keywords would exceed a server-defined maximum."
  | .tooManyMailboxes => some
      "The change to the email's mailboxes would exceed a server-defined maximum."
  | .invalidEmail => some
      "The email to be sent is invalid in some way."
  | .tooManyRecipients => some
      ("The [RFC5321] envelope (supplied or generated) has more recipients than the server " ++
       "allows.")
  | .noRecipients => some
      "The [RFC5321] envelope (supplied or generated) does not have any rcptTo emails."
  | .invalidRecipients => some
      ("The rcptTo property of the [RFC5321] envelope (supplied or generated) contains at " ++
       "least one rcptTo value which is not a valid email for sending to.")
  | .forbiddenMailFrom => some
      "The server does not permit the user to send an email with the [RFC5321] envelope From."
  | .forbiddenFrom => some
      ("The server does not permit the user to send an email with the [RFC5322] From header " ++
       "field of the email to be sent.")
  | .forbiddenToSend => some
      "The user does not have permission to send at all right now."
  | .other _ => none

instance : Writable ErrorCode := ⟨fun code => .ok (.ofString code.text)⟩

def reader : Reader ErrorCode := Reader.text.map ofText

end ErrorCode
end Jmap
