import Jmap.Arguments
import Jmap.Client.Builder
import Jmap.Json.Spelling
import Jmap.Proofs.Batch.Numbering
import Jmap.Proofs.Boundary
import Jmap.Proofs.Client.Answers
import Jmap.Proofs.Client.Measures
import Jmap.Proofs.Date.Canonical
import Jmap.Proofs.Date.Offset
import Jmap.Proofs.Decoding.Verbatim
import Jmap.Proofs.Encoding
import Jmap.Proofs.Invocation
import Jmap.Proofs.MethodError
import Jmap.Proofs.Pointer.Address
import Jmap.Proofs.Pointer.Validity
import Jmap.Proofs.Problem.Overlay
import Jmap.Proofs.ResultReference
import Jmap.Proofs.Session.Url
import Jmap.ResultReference
import Jmap.Proofs.Client.Lifetime
import Jmap.Proofs.Client.MediaType
import Jmap.Proofs.Client.Respelling
import Jmap.Proofs.Client.Rejection
import Jmap.Proofs.Json.Members
import Jmap.Proofs.Json.Objects
import Jmap.Proofs.Decoding.Members
import Jmap.Proofs.Registry
import Jmap.Proofs.Integer
import Jmap.Proofs.Id.Random
