import Jmap.Proofs.Client.Lifetime
import Jmap.Proofs.Client.MediaType

/-! Two clients whose servers reply alike, up to the spelling of content types, do and
answer the same in every run. -/
namespace Jmap
open Json Outcome

/-- Outcomes with the same error, or with values that are related. -/
inductive Outcome.Related {B C E : Type} (R : B → C → Prop) : Except E B → Except E C → Prop where
  | ok {value : B} {partner : C} (related : R value partner) : Related R (.ok value) (.ok partner)
  | error (error : E) : Related R (.error error) (.error error)

theorem Outcome.Related.eq {B E : Type} {left right : Except E B} (related : Related Eq left right) : left = right := by
  cases related with
  | ok same => rw [same]
  | error => rfl

theorem Outcome.Related.refl {B E : Type} {R : B → B → Prop} (reflexive : ∀ value, R value value) (outcome : Except E B) :
    Related R outcome outcome := by
  cases outcome with
  | ok value => exact .ok (reflexive value)
  | error error => exact .error error

/-- Nothing but the spelling of the content type is different. -/
structure HttpReply.Alike (left right : HttpReply) : Prop where
  status : left.status = right.status
  body : left.body = right.body
  contentType : Option.Rel (Relation.EqvGen Respelled) left.contentType right.contentType

namespace HttpReply
variable {left right : HttpReply}

theorem essence_of_respellings {first last : String} (spellings : Relation.EqvGen Respelled first last) :
    essence first = essence last := by
  induction spellings with
  | rel _ _ spelling => exact essence_respelled spelling
  | refl => rfl
  | symm _ _ _ ih => exact ih.symm
  | trans _ _ _ _ _ first second => exact first.trans second

theorem Alike.refl (reply : HttpReply) : reply.Alike reply := by
  refine ⟨rfl,rfl,?_⟩
  cases reply.contentType with
  | none => exact .none
  | some contentType => exact .some (.refl contentType)

theorem Alike.isSuccess (alike : left.Alike right) : left.isSuccess = right.isSuccess := by
  rw [HttpReply.isSuccess,HttpReply.isSuccess,alike.status]

theorem Alike.toError (alike : left.Alike right) : left.toError = right.toError := by
  have json : left.isJson = right.isJson := by
    have types := alike.contentType
    unfold isJson
    generalize left.contentType = first,right.contentType = last at types
    cases types with
    | none => rfl
    | some spellings => rw [Option.any_some,Option.any_some,essence_of_respellings spellings]
  rw [HttpReply.toError,HttpReply.toError,json,alike.status,alike.body]

end HttpReply

structure Exchange.Alike (left right : Exchange) : Prop where
  kind : left.kind = right.kind
  request : left.request = right.request
  result : Related HttpReply.Alike left.result right.result

theorem Exchange.Alike.reply {left right : Exchange} (alike : left.Alike right) :
    Related HttpReply.Alike left.reply right.reply := by
  have results := alike.result
  unfold Exchange.reply
  generalize left.result = first,right.result = last at results
  cases results with
  | error error => exact .error _
  | ok same =>
    simp only [same.isSuccess,same.toError]
    split
    · exact .ok same
    · split <;> exact .error _

theorem Exchange.Alike.measurements {left right : Exchange} (alike : left.Alike right) :
    left.measurements = right.measurements := by
  have accepted : left.isAccepted = right.isAccepted := by
    have results := alike.result
    unfold isAccepted
    generalize left.result = first,right.result = last at results
    cases results with
    | error error => rfl
    | ok same => exact same.isSuccess
  rw [Exchange.measurements,Exchange.measurements,alike.kind,accepted]

namespace Effect
variable {B C D E : Type}

structure Alike (R : B → C → Prop) (left : Effect B) (right : Effect C) : Prop where
  exchanges : List.Forall₂ Exchange.Alike left.exchanges right.exchanges
  fetched : left.fetched = right.fetched
  measured : left.measured = right.measured
  outcome : Related R left.outcome right.outcome

theorem alike_settled (outcome : Except Fault B) : Alike Eq (settled outcome) (settled outcome) := by
  refine ⟨?_,rfl,rfl,.refl (fun _ => rfl) _⟩
  cases outcome <;> exact .nil

theorem Alike.andThen {R : B → C → Prop} {S : D → E → Prop} {left : Effect B} {right : Effect C}
    {next : B → Effect D} {other : C → Effect E} (first : Alike R left right)
    (rest : ∀ value partner, R value partner → Alike S (next value) (other partner)) :
    Alike S (left.andThen next) (right.andThen other) := by
  obtain ⟨exchanges,fetched,measured,outcome⟩ := first
  obtain ⟨_,_,_,leftOutcome⟩ := left
  obtain ⟨_,_,_,rightOutcome⟩ := right
  cases outcome with
  | error fault =>
    rw [andThen_of_error rfl,andThen_of_error rfl]
    exact ⟨exchanges,fetched,measured,.error fault⟩
  | ok related =>
    obtain ⟨later,refetched,remeasured,result⟩ := rest _ _ related
    rw [andThen_of_ok rfl,andThen_of_ok rfl]
    exact ⟨List.rel_append exchanges later,by rw [refetched,fetched],by rw [remeasured,measured],result⟩

theorem alike_exchanged {left right : Exchange} (alike : left.Alike right) :
    Alike HttpReply.Alike (exchanged left) (exchanged right) := by
  have replies := alike.reply
  have silent : (settled left.reply).measured = (settled right.reply).measured := by
    generalize left.reply = first,right.reply = last at replies
    cases replies <;> rfl
  rw [exchanged_eq,exchanged_eq]
  exact ⟨.cons alike .nil,rfl,by rw [alike.measurements,silent],replies⟩

theorem alike_posted {left right : Exchange} (alike : left.Alike right) (calls : Nat) :
    Alike HttpReply.Alike (posted left calls) (posted right calls) := by
  refine (alike_exchanged alike).andThen fun reply other same => ?_
  exact ⟨.nil,rfl,rfl,.ok same⟩

end Effect

structure ClientState.Alike (left right : ClientState) : Prop where
  session : left.session = right.session
  log : List.Forall₂ Exchange.Alike left.log right.log
  ledger : left.ledger = right.ledger

theorem ClientState.Alike.requests {left right : ClientState} (alike : left.Alike right) :
    left.requests = right.requests := by
  rw [ClientState.requests,ClientState.requests,← List.forall₂_eq_eq_eq,List.forall₂_map_left_iff,List.forall₂_map_right_iff]
  exact alike.log.imp fun _ _ exchange => exchange.request

namespace Client
variable {A B C : Type} {client : Client A} {transport : Transport} {left right : ClientState}

def carriedBy (client : Client A) (transport : Transport) : Client A := {client with transport}

@[simp] theorem sessionEndpoint_carriedBy (client : Client A) (transport : Transport) :
    (client.carriedBy transport).sessionEndpoint = client.sessionEndpoint := rfl

/-- Whatever has been asked before, the two reply to a request alike. -/
def RepliesAlike (first second : Transport) : Prop :=
  ∀ earlier request, Related HttpReply.Alike (first earlier request) (second earlier request)

theorem repliesAlike_scripted {first last : List (Except Error HttpReply)}
    (alike : List.Forall₂ (Related HttpReply.Alike) first last) :
    RepliesAlike (.scripted first) (.scripted last) := by
  intro earlier request
  unfold Transport.scripted
  generalize earlier.length = index
  induction alike generalizing index with
  | nil => exact .error _
  | cons head _ ih =>
    cases index with
    | zero => exact head
    | succ index => exact ih index

theorem alike_advance {R : B → C → Prop} (states : left.Alike right) {effect : Effect B} {other : Effect C}
    (effects : effect.Alike R other) : (client.advance left effect).Alike ((client.carriedBy transport).advance right other) := by
  obtain ⟨session,log,ledger⟩ := states
  obtain ⟨exchanges,fetched,measured,_⟩ := effects
  have kept : client.kept effect.measured = (client.carriedBy transport).kept other.measured := by rw [measured]; rfl
  refine ⟨?_,List.rel_append log exchanges,?_⟩
  · rw [advance,advance,fetched,session]
  · rw [advance,advance,kept,ledger]

section
variable (replies : RepliesAlike client.transport transport) (states : left.Alike right)
include replies states

theorem alike_meet (kind : ExchangeKind) (request : HttpRequest) :
    (client.meet left kind request).Alike ((client.carriedBy transport).meet right kind request) := by
  refine ⟨rfl,rfl,?_⟩
  rw [meet,meet,states.requests]
  exact replies _ _

theorem alike_fetching : (client.fetching left).Alike Eq ((client.carriedBy transport).fetching right) := by
  unfold fetching
  rw [sessionEndpoint_carriedBy]
  split
  next => exact Effect.alike_settled _
  next =>
    refine (Effect.alike_exchanged (alike_meet replies states _ _)).andThen fun reply other same => ?_
    rw [same.body]
    refine (Effect.alike_settled _).andThen fun session _ received => ?_
    subst received
    exact ⟨.nil,rfl,rfl,.ok rfl⟩

theorem alike_obtaining : (client.obtaining left).Alike Eq ((client.carriedBy transport).obtaining right) := by
  unfold obtaining
  rw [states.session]
  split
  · exact Effect.alike_settled _
  · exact alike_fetching replies states

theorem alike_withSession {R : B → C → Prop} {next : ClientState → Session → Effect B}
    {other : ClientState → Session → Effect C}
    (rest : ∀ after later session, after.Alike later → (next after session).Alike R (other later session)) :
    (client.withSession left next).Alike R ((client.carriedBy transport).withSession right other) := by
  have obtained := alike_obtaining replies states
  refine obtained.andThen fun session _ same => ?_
  subst same
  exact rest _ _ session (alike_advance states obtained)

theorem alike_sending [Writable B] (registry : Registry B) (request : Request B) :
    (client.sending left registry request).Alike Eq ((client.carriedBy transport).sending right registry request) := by
  unfold sending
  rw [sessionEndpoint_carriedBy]
  split
  next => exact Effect.alike_settled _
  next =>
    refine alike_withSession replies states fun after later session behind => ?_
    refine (Effect.alike_settled _).andThen fun _ _ _ => ?_
    refine (Effect.alike_settled _).andThen fun body _ same => ?_
    subst same
    refine (Effect.alike_posted (alike_meet replies behind _ _) _).andThen fun reply other same => ?_
    rw [responseOf,responseOf,same.body]
    exact Effect.alike_settled _

theorem alike_uploading (account : Id) (contentType : String) (data : ByteArray) :
    (client.uploading left account contentType data).Alike Eq
      ((client.carriedBy transport).uploading right account contentType data) := by
  refine alike_withSession replies states fun after later session behind => ?_
  refine (Effect.alike_settled _).andThen fun _ _ _ => ?_
  refine (Effect.alike_exchanged (alike_meet replies behind _ _)).andThen fun reply other same => ?_
  rw [same.body]
  exact Effect.alike_settled _

theorem alike_downloading (account blob : Id) (name contentType : String) :
    (client.downloading left account blob name contentType).Alike Eq
      ((client.carriedBy transport).downloading right account blob name contentType) := by
  refine alike_withSession replies states fun after later session behind => ?_
  refine (Effect.alike_exchanged (alike_meet replies behind _ _)).andThen fun reply other same => ?_
  rw [same.body]
  exact Effect.alike_settled _

theorem alike_effect [Writable A] (operation : Operation A) :
    (operation.effect client left).Alike Eq (operation.effect (client.carriedBy transport) right) := by
  cases operation with
  | updateSession => exact alike_fetching replies states
  | session => exact alike_obtaining replies states
  | cachedSession =>
    change Effect.Alike Eq (.settled (.ok left.session)) (.settled (.ok right.session))
    rw [states.session]
    exact Effect.alike_settled _
  | send request => exact alike_sending replies states client.registry request
  | sendWith registry request => exact alike_sending replies states registry request
  | echo =>
    refine (alike_sending replies states echoRegistry echoRequest).andThen fun response _ same => ?_
    subst same
    exact Effect.alike_settled _
  | upload account contentType data => exact alike_uploading replies states account contentType data
  | download account blob => exact alike_downloading replies states account blob blob.text octetStream
  | downloadAs account blob name contentType => exact alike_downloading replies states account blob name contentType

end
end Client

namespace Live
variable {A : Type} [Writable A]

def carriedBy (live : Live A) (transport : Transport) : Live A := {live with client := live.client.carriedBy transport}

/-- The other of two clients that have come so far with different transports. -/
structure Alike (transport : Transport) (left right : Live A) : Prop where
  client : right.client = left.client.carriedBy transport
  replies : Client.RepliesAlike left.client.transport transport
  state : left.state.Alike right.state

theorem Alike.effect {transport : Transport} {left right : Live A} (alike : Alike transport left right)
    (operation : Operation A) :
    (operation.effect left.client left.state).Alike Eq (operation.effect right.client right.state) := by
  rw [alike.client]
  exact Client.alike_effect alike.replies alike.state operation

theorem Alike.step {transport : Transport} {left right : Live A} (alike : Alike transport left right) (event : Event A) :
    Alike transport (left.step event) (right.step event) := by
  obtain ⟨client,replies,state⟩ := alike
  cases event with
  | enable registry =>
    refine ⟨?_,replies,state⟩
    change right.client.enable registry = _
    rw [client]
    rfl
  | operation operation =>
    refine ⟨client,replies,?_⟩
    change (left.client.next left.state operation).Alike (right.client.next right.state operation)
    rw [Client.next_eq,Client.next_eq,client]
    exact Client.alike_advance state (Client.alike_effect replies state operation)

theorem Alike.run {transport : Transport} {left right : Live A} (alike : Alike transport left right)
    (events : List (Event A)) : Alike transport (left.run events) (right.run events) := by
  induction events generalizing left right with
  | nil => exact alike
  | cons event events ih => exact ih (alike.step event)

theorem Alike.answer {transport : Transport} {left right : Live A} (alike : Alike transport left right)
    (operation : Operation A) : left.answer operation = right.answer operation := by
  rw [answer_eq,answer_eq,(alike.effect operation).outcome.eq]

omit [Writable A] in
theorem alike_carriedBy {live : Live A} {transport : Transport}
    (replies : Client.RepliesAlike live.client.transport transport) : Alike transport live (live.carriedBy transport) := by
  refine ⟨rfl,replies,rfl,?_,rfl⟩
  refine List.forall₂_same.mpr fun exchange _ => ⟨rfl,rfl,?_⟩
  exact .refl HttpReply.Alike.refl exchange.result

end Live
end Jmap
