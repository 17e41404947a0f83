import Jmap.Proofs.Client.Conduct
import Mathlib.Data.List.Induction

/-! The operations of a client, and runs of them one after the other. What holds of the
parts from which an effect is put together holds of every operation. -/
namespace Jmap
open Json Outcome

/-- What a client can be asked to do. Arguments need not be of the client's own type. -/
inductive Operation (A : Type) : Type 1 where
  | updateSession
  | session
  | cachedSession
  | send (request : Request A)
  | sendWith {B : Type} [Writable B] (registry : Registry B) (request : Request B)
  | echo
  | upload (account : Id) (contentType : String) (data : ByteArray)
  | download (account blob : Id)
  | downloadAs (account blob : Id) (name contentType : String)

namespace Client
variable {A : Type}

def echoed (response : Response (SortedMap Value)) : Except Error Unit :=
  match response.entries with
  | [] => .error (.serialization (.described "empty methodResponses for Core/echo"))
  | .success _ :: _ => .ok ()
  | .failure error :: _ => .error (.method error)

def echoing (client : Client A) (state : ClientState) : Effect Unit :=
  (client.sending state echoRegistry echoRequest).andThen fun response =>
    .settled (Fault.blame none (echoed response))

theorem echo_hasEffect (client : Client A) (state : ClientState) :
    Action.HasEffect client.echo client state (client.echoing state) := by
  refine (sendWith_hasEffect client state echoRegistry echoRequest).bind fun response _ => ?_
  obtain ⟨entries,_,_⟩ := response
  rcases entries with _ | ⟨_ | _,_⟩
  · exact Action.hasEffect_throw _
  · exact Action.hasEffect_pure ()
  · exact Action.hasEffect_throw _

end Client

namespace Operation
variable {A : Type}

def Answer : Operation A → Type
  | updateSession => Session
  | session => Session
  | cachedSession => Option Session
  | send _ => Response A
  | @sendWith _ B _ _ _ => Response B
  | echo => Unit
  | upload _ _ _ => BlobInfo
  | download _ _ => ByteArray
  | downloadAs _ _ _ _ => ByteArray

def calls : Operation A → Nat
  | send request => request.calls.length
  | sendWith _ request => request.calls.length
  | echo => Client.echoRequest.calls.length
  | _ => 0

variable [Writable A]

def perform (client : Client A) : (operation : Operation A) → Action operation.Answer
  | updateSession => client.updateSession
  | session => client.session
  | cachedSession => client.cachedSession
  | send request => client.send request
  | sendWith registry request => client.sendWith registry request
  | echo => client.echo
  | upload account contentType data => client.upload account contentType data
  | download account blob => client.download account blob
  | downloadAs account blob name contentType => client.downloadAs account blob name contentType

def effect (client : Client A) (state : ClientState) : (operation : Operation A) → Effect operation.Answer
  | updateSession => client.fetching state
  | session => client.obtaining state
  | cachedSession => .settled (.ok state.session)
  | send request => client.sending state client.registry request
  | sendWith registry request => client.sending state registry request
  | echo => client.echoing state
  | upload account contentType data => client.uploading state account contentType data
  | download account blob => client.downloading state account blob blob.text Client.octetStream
  | downloadAs account blob name contentType => client.downloading state account blob name contentType

theorem perform_hasEffect (client : Client A) (state : ClientState) (operation : Operation A) :
    Action.HasEffect (operation.perform client) client state (operation.effect client state) := by
  cases operation with
  | updateSession => exact client.updateSession_hasEffect state
  | session => exact client.session_hasEffect state
  | cachedSession => exact Action.HasEffect.get_bind (Action.hasEffect_pure state.session)
  | send request => exact client.sendWith_hasEffect state client.registry request
  | sendWith registry request => exact client.sendWith_hasEffect state registry request
  | echo => exact client.echo_hasEffect state
  | upload account contentType data => exact client.upload_hasEffect state account contentType data
  | download account blob => exact client.downloadAs_hasEffect state account blob blob.text Client.octetStream
  | downloadAs account blob name contentType => exact client.downloadAs_hasEffect state account blob name contentType

end Operation

/-- A property that effects have because the parts have it from which they are put together
in a state; `calls` is how many calls are sent. -/
structure Effect.Composable {A : Type} (client : Client A) (state : ClientState) (calls : Nat)
    (P : ∀ {B : Type}, Effect B → Prop) : Prop where
  settled : ∀ {B : Type} (outcome : Except Fault B), P (.settled outcome)
  andThen : ∀ {B C : Type} {effect : Effect B} {next : B → Effect C}, P effect → (∀ value, P (next value)) →
    P (effect.andThen next)
  obtaining : P (client.obtaining state)
  posted : ∀ exchange, exchange.kind = .api → P (.posted exchange calls)
  exchanged : ∀ exchange, exchange.kind = .upload ∨ exchange.kind = .download → P (.exchanged exchange)

theorem Effect.of_obtaining {A : Type} {client : Client A} {state : ClientState} {P : Effect Session → Prop}
    (settled : ∀ session, P (.settled (.ok session))) (fetching : P (client.fetching state)) :
    P (client.obtaining state) := by
  unfold Client.obtaining
  split
  · exact settled _
  · exact fetching

namespace Effect.Composable
variable {A B : Type} {client : Client A} {state : ClientState} {calls : Nat} {P : ∀ {B : Type}, Effect B → Prop}

theorem withSession (parts : Composable client state calls P) {next : ClientState → Session → Effect B}
    (rest : ∀ after session, P (next after session)) : P (client.withSession state next) :=
  parts.andThen parts.obtaining fun session => rest _ session

theorem sending [Writable B] (registry : Registry B) (request : Request B)
    (parts : Composable client state request.calls.length P) : P (client.sending state registry request) := by
  unfold Client.sending
  split
  · exact parts.settled _
  · refine parts.withSession fun after session => ?_
    refine parts.andThen (parts.settled _) fun _ => parts.andThen (parts.settled _) fun body => ?_
    exact parts.andThen (parts.posted _ rfl) fun reply => parts.settled _

theorem uploading (parts : Composable client state calls P) (account : Id) (contentType : String)
    (data : ByteArray) : P (client.uploading state account contentType data) := by
  refine parts.withSession fun after session => parts.andThen (parts.settled _) fun _ => ?_
  exact parts.andThen (parts.exchanged _ (.inl rfl)) fun reply => parts.settled _

theorem downloading (parts : Composable client state calls P) (account blob : Id) (name contentType : String) :
    P (client.downloading state account blob name contentType) :=
  parts.withSession fun _ _ => parts.andThen (parts.exchanged _ (.inr rfl)) fun _ => parts.settled _

theorem effect [Writable A] (operation : Operation A) (parts : Composable client state operation.calls P)
    (fetching : operation = .updateSession → P (client.fetching state)) : P (operation.effect client state) := by
  cases operation with
  | updateSession => exact fetching rfl
  | session => exact parts.obtaining
  | cachedSession => exact parts.settled (.ok state.session)
  | send request => exact parts.sending client.registry request
  | sendWith registry request => exact parts.sending registry request
  | echo => exact parts.andThen (parts.sending Client.echoRegistry Client.echoRequest) fun _ => parts.settled _
  | upload account contentType data => exact parts.uploading account contentType data
  | download account blob => exact parts.downloading account blob blob.text Client.octetStream
  | downloadAs account blob name contentType => exact parts.downloading account blob name contentType

end Effect.Composable

namespace Client
variable {A : Type} [Writable A]

def next (client : Client A) (state : ClientState) (operation : Operation A) : ClientState :=
  (Action.apply (operation.perform client) state).2

def after (client : Client A) (operations : List (Operation A)) : ClientState :=
  operations.foldl client.next .initial

theorem next_eq (client : Client A) (state : ClientState) (operation : Operation A) :
    client.next state operation = client.advance state (operation.effect client state) :=
  (operation.perform_hasEffect client state).behind

theorem after_concat (client : Client A) (operations : List (Operation A)) (operation : Operation A) :
    client.after (operations ++ [operation]) = client.next (client.after operations) operation :=
  List.foldl_concat ..

/-- What holds at the start and is kept by every operation holds throughout a run. -/
theorem after_induction {client : Client A} {P : ClientState → Prop} (initial : P .initial)
    (step : ∀ state operation, P state → P (client.next state operation)) (operations : List (Operation A)) :
    P (client.after operations) := by
  induction operations using List.reverseRecOn with
  | nil => exact initial
  | append_singleton operations operation ih => exact client.after_concat operations operation ▸ step _ _ ih

end Client
end Jmap
