import Jmap.Proofs.Client.Respelling
import Jmap.Proofs.Client.Wire

/-! Replies without success. An operation ends with the first one that it meets, at
whichever of its exchanges, and its error is what that reply means. -/
namespace Jmap
open Json Outcome

namespace HttpReply

/-- A problem in the body, of a reply that declares one. -/
def Describes (reply : HttpReply) (problem : Problem) : Prop :=
  reply.DeclaresJson ∧ Problem.reader.ofBytes reply.body = .ok problem

structure Means (reply : HttpReply) (error : Error) : Prop where
  problem : ∀ problem, error = .request problem ↔ reply.Describes problem
  status : (∀ problem, ¬reply.Describes problem) → error = .http reply.status

theorem means_toError (reply : HttpReply) : reply.Means reply.toError := by
  have declared := @isJson_iff reply
  unfold toError
  split
  next json =>
    split
    next found decoded =>
      have describes (problem : Problem) : reply.Describes problem ↔ found = problem := by
        simp [Describes,declared.mp json,decoded]
      refine ⟨fun problem => by simp [describes],fun nothing => ?_⟩
      exact absurd ((describes found).mpr rfl) (nothing found)
    next defect decoded => exact ⟨fun problem => by simp [Describes,decoded],fun _ => rfl⟩
  next undeclared =>
    have nothing : ¬reply.DeclaresJson := undeclared ∘ declared.mpr
    exact ⟨fun problem => by simp [Describes,nothing],fun _ => rfl⟩

end HttpReply

namespace Exchange
variable {exchange : Exchange} {reply : HttpReply}

theorem reply_of_rejected (result : exchange.result = .ok reply) (rejected : reply.isSuccess = false) :
    ∃ kind, exchange.reply = .error ⟨reply.toError,kind⟩ := by
  unfold Exchange.reply
  rw [result]
  dsimp only
  rw [rejected,if_neg Bool.false_ne_true]
  split
  next problem meaning => exact ⟨_,by rw [meaning]⟩
  next => exact ⟨_,rfl⟩

theorem session?_of_failed {fault : Fault} (failed : exchange.reply = .error fault) : exchange.session? = none := by
  refine Option.eq_none_iff_forall_ne_some.mpr fun session found => ?_
  obtain ⟨_,reply,succeeded,_⟩ := session?_eq_some_iff.mp found
  rw [failed] at succeeded
  contradiction

end Exchange

namespace Effect
variable {B C : Type}

/-- An exchange that fails is the only one to fail and the last one, and its failure is what comes of the whole. -/
def IsConclusive (effect : Effect B) : Prop :=
  ∀ exchange ∈ effect.exchanges, ∀ fault, exchange.reply = .error fault → effect.outcome = .error fault ∧
    ∃ earlier, effect.exchanges = earlier ++ [exchange] ∧ ∀ before ∈ earlier, before.isAccepted

theorem isConclusive_of_silent {effect : Effect B} (silent : effect.exchanges = []) : effect.IsConclusive := by
  intro exchange member
  simp [silent] at member

theorem isConclusive_settled (outcome : Except Fault B) : (settled outcome).IsConclusive :=
  isConclusive_of_silent (by cases outcome <;> rfl)

theorem IsConclusive.andThen {effect : Effect B} {next : B → Effect C} (first : effect.IsConclusive)
    (rest : ∀ value, (next value).IsConclusive) : (effect.andThen next).IsConclusive := by
  cases outcome : effect.outcome with
  | error fault =>
    rw [andThen_of_error outcome]
    intro exchange member other failed
    obtain ⟨same,last⟩ := first exchange member other failed
    cases outcome.symm.trans same
    exact ⟨rfl,last⟩
  | ok value =>
    have accepted : ∀ before ∈ effect.exchanges, before.isAccepted := by
      intro before member
      cases replied : before.reply with
      | ok reply => exact Exchange.isAccepted_iff.mpr ⟨reply,replied⟩
      | error fault =>
        have failed := (first before member fault replied).1
        rw [outcome] at failed
        contradiction
    rw [andThen_of_ok outcome]
    intro exchange member fault failed
    rcases List.mem_append.mp member with early | late
    · obtain ⟨reply,succeeded⟩ := Exchange.isAccepted_iff.mp (accepted exchange early)
      rw [failed] at succeeded
      contradiction
    · obtain ⟨same,earlier,split,successes⟩ := rest value exchange late fault failed
      refine ⟨same,effect.exchanges ++ earlier,?_,fun before inside => ?_⟩
      · dsimp only
        rw [split,List.append_assoc]
      · exact (List.mem_append.mp inside).elim (accepted before) (successes before)

theorem isConclusive_exchanged (exchange : Exchange) : (exchanged exchange).IsConclusive := by
  rw [exchanged_eq]
  intro other member fault failed
  cases List.mem_singleton.mp member
  exact ⟨failed,[],rfl,by simp⟩

theorem isConclusive_fetching {A : Type} (client : Client A) (state : ClientState) :
    (client.fetching state).IsConclusive := by
  unfold Client.fetching
  split
  · exact isConclusive_settled _
  · refine (isConclusive_exchanged _).andThen fun reply => (isConclusive_settled _).andThen fun session => ?_
    exact isConclusive_of_silent rfl

theorem isConclusive_effect {A : Type} [Writable A] (client : Client A) (state : ClientState)
    (operation : Operation A) : (operation.effect client state).IsConclusive := by
  have fetching := isConclusive_fetching client state
  have parts : Composable client state operation.calls IsConclusive :=
    { settled := isConclusive_settled
      andThen := IsConclusive.andThen
      obtaining := of_obtaining (fun _ => isConclusive_settled _) fetching
      posted := fun exchange _ => (isConclusive_exchanged exchange).andThen fun _ => isConclusive_of_silent rfl
      exchanged := fun exchange _ => isConclusive_exchanged exchange }
  exact parts.effect operation fun _ => fetching

end Effect

namespace Operation
variable {A : Type} [Writable A] {client : Client A} {state : ClientState} {operation : Operation A}

omit [Writable A] in
theorem opening_cases (client : Client A) (state : ClientState) (operation : Operation A) :
    operation.opening client state = [] ∨ operation.opening client state = [client.sessionExchange state] := by
  have fetched : client.fetch state = [] ∨ client.fetch state = [client.sessionExchange state] := by
    unfold Client.fetch
    split
    · exact .inl rfl
    · exact .inr rfl
  have opened : client.opening state = [] ∨ client.opening state = [client.sessionExchange state] := by
    unfold Client.opening
    split
    · exact .inl rfl
    · exact fetched
  cases operation with
  | updateSession => exact fetched
  | cachedSession => exact .inl rfl
  | _ => exact opened

theorem opening_of_makes {session : Session} {kind : ExchangeKind} {request : HttpRequest}
    (makes : operation.Makes client session kind request) : operation.opening client state = client.opening state := by
  cases operation with
  | updateSession =>
    cases makes with
    | calls _ _ written => simp [body?] at written
  | cachedSession =>
    cases makes with
    | calls _ _ written => simp [body?] at written
  | _ => rfl

end Operation

namespace Client
variable {A : Type} [Writable A]

/-- Nothing follows an exchange, and the session kept behind it is that under which it was made:
the one kept before, or the one that had to be fetched for it. -/
inductive Concludes (client : Client A) (state : ClientState) (exchange : Exchange) :
    List Exchange → Option Session → Prop where
  | alone : Concludes client state exchange [exchange] state.session
  | fetched {session : Session} (missing : state.session = none)
    (found : (client.sessionExchange state).session? = some session) :
    Concludes client state exchange [client.sessionExchange state,exchange] (some session)

omit [Writable A] in
theorem session_of_opening {client : Client A} {state : ClientState}
    (fetched : client.opening state = [client.sessionExchange state]) : state.session = none := by
  unfold opening at fetched
  split at fetched
  · contradiction
  · assumption

theorem concludes_of_failed {client : Client A} {state : ClientState} {operation : Operation A} {exchange : Exchange}
    {fault : Fault} (member : exchange ∈ (operation.effect client state).exchanges)
    (failed : exchange.reply = .error fault) :
    client.Concludes state exchange (operation.effect client state).exchanges (client.next state operation).session := by
  obtain ⟨_,earlier,split,_⟩ := Effect.isConclusive_effect client state operation exchange member fault failed
  have silent : latestSession [exchange] = none :=
    latestSession_of_none (by simp [Exchange.session?_of_failed failed])
  have kept := client.next_session state operation
  have wire := operation.wire_effect client state
  rw [split,latestSession_append,silent,Option.none_or] at kept
  rw [split] at wire ⊢
  rw [kept]
  generalize same : earlier ++ [exchange] = made at wire
  cases wire with
  | opening _ =>
    rcases operation.opening_cases client state with none | one
    · simp [none] at same
    · rw [one] at same
      rw [one,← same]
      obtain ⟨rfl,_⟩ := (List.append_eq_singleton_iff.mp same).resolve_right (by simp)
      exact .alone
  | own available makes =>
    obtain ⟨openings,last⟩ := List.append_inj' same rfl
    rw [← last]
    have opened : operation.opening client state = client.opening state := Operation.opening_of_makes makes
    rw [Client.available?,← opened,← openings] at available
    rcases operation.opening_cases client state with none | one
    · rw [openings,none]
      exact .alone
    · rw [openings,one] at available ⊢
      have missing := session_of_opening (opened ▸ one)
      simp only [missing,Option.or_none,latestSession] at available ⊢
      cases found : (client.sessionExchange state).session? with
      | none => simp [found] at available
      | some session =>
        simp only [List.filterMap_cons,found,List.filterMap_nil,List.getLast?_singleton]
        exact .fetched missing found

end Client

namespace Live
variable {A : Type} [Writable A]

theorem answer_of_rejected {live : Live A} {operation : Operation A} {exchange : Exchange} {reply : HttpReply}
    (member : exchange ∈ (operation.effect live.client live.state).exchanges) (result : exchange.result = .ok reply)
    (rejected : reply.isSuccess = false) : live.answer operation = .error reply.toError := by
  obtain ⟨kind,failed⟩ := Exchange.reply_of_rejected result rejected
  have outcome := (Effect.isConclusive_effect live.client live.state operation exchange member _ failed).1
  rw [answer_eq,outcome]
  rfl

/-- At any exchange of any operation of a client in any state, a reply without success decides
the error and ends the operation. How it spells its content type never shows, in this
operation or in a later one. -/
theorem answer_of_rejection (live : Live A) :
    (∀ operation, ∃ made, (live.step (.operation operation)).state.log = live.state.log ++ made ∧
      ∀ exchange ∈ made, ∀ reply, exchange.result = .ok reply → (reply.status < 200 ∨ 299 < reply.status) →
        (∃ error, live.answer operation = .error error ∧ reply.Means error) ∧
        live.client.Concludes live.state exchange made (live.step (.operation operation)).state.session ∧
        (live.step (.operation operation)).client.registry = live.client.registry) ∧
    ∀ transport, Client.RepliesAlike live.client.transport transport →
      ∀ (events : List (Event A)) (operation : Operation A),
        (live.run events).answer operation = ((live.carriedBy transport).run events).answer operation := by
  constructor
  · intro operation
    refine ⟨_,live.client.next_log live.state operation,fun exchange member reply result outside => ?_⟩
    have rejected : reply.isSuccess = false := by
      simp only [HttpReply.isSuccess,Bool.and_eq_false_iff,decide_eq_false_iff_not]
      omega
    obtain ⟨_,failed⟩ := Exchange.reply_of_rejected result rejected
    exact ⟨⟨_,answer_of_rejected member result rejected,reply.means_toError⟩,
      Client.concludes_of_failed member failed,rfl⟩
  · exact fun transport replies events operation => ((alike_carriedBy replies).run events).answer operation

theorem answer_of_rejection_forbidden :
    let body := "\x7b\"capabilities\":\x7b\"urn:ietf:params:jmap:core\":\x7b\"maxCallsInRequest\":2\x7d\x7d\x7d"
    let replies (contentType : String) : List (Except Error HttpReply) :=
      [.ok ⟨200,none,body.toUTF8⟩,.ok ⟨403,some contentType,"\x7b\"type\":\"about:blank\"\x7d".toUTF8⟩]
    let client : Client Value :=
      ⟨.scripted (replies "Application/Problem+JSON;charset=utf-8"),"https://example.com/jmap","",.empty,none⟩
    let live : Live Value := ⟨client,.initial⟩
    let after := (live.step (.operation .echo)).state
    (∃ exchange session, after.log = [client.sessionExchange .initial,exchange] ∧ after.session = some session) ∧
      (∃ problem, live.answer .echo = .error (.request problem)) ∧
      live.answer .echo = (live.carriedBy (.scripted (replies "application/problem+json"))).answer .echo := by
  intro body replies client live after
  have forbidden : after.log.any (fun exchange => exchange.result.toOption.any fun reply =>
      reply.status == 403 && reply.isJson && (Problem.reader.ofBytes reply.body).toOption.isSome) := by decide +kernel
  have asked : after.log.length = 2 := by decide +kernel
  obtain ⟨first,respelled⟩ := answer_of_rejection live
  obtain ⟨made,log,rejected⟩ := first .echo
  have logged : after.log = made := log
  rw [logged] at forbidden asked
  obtain ⟨exchange,member,replied⟩ := List.any_eq_true.mp forbidden
  obtain ⟨reply,result,checked⟩ := exists_ok_of_any replied
  simp only [Bool.and_eq_true,beq_iff_eq] at checked
  obtain ⟨⟨status,json⟩,decoded⟩ := checked
  obtain ⟨⟨error,answer,means⟩,concludes,_⟩ := rejected exchange member reply result (by omega)
  refine ⟨?_,?_,?_⟩
  · change client.Concludes .initial exchange made after.session at concludes
    generalize after.session = session at concludes ⊢
    cases concludes with
    | alone => simp at asked
    | fetched => exact ⟨exchange,_,logged,rfl⟩
  · obtain ⟨problem,read⟩ : ∃ problem, Problem.reader.ofBytes reply.body = .ok problem := by
      cases read : Problem.reader.ofBytes reply.body with
      | ok problem => exact ⟨problem,rfl⟩
      | error defect => simp [read,Except.toOption] at decoded
    have error := (means.problem problem).mpr ⟨HttpReply.isJson_iff.mp json,read⟩
    exact ⟨problem,answer.trans (congrArg _ error)⟩
  · refine respelled _ (Client.repliesAlike_scripted ?_) [] .echo
    have same : Relation.EqvGen Respelled "Application/Problem+JSON;charset=utf-8" "application/problem+json" :=
      .trans _ "Application/Problem+JSON" _ (.symm _ _ (.rel _ _ (.parameters _ "charset=utf-8")))
        (.rel _ _ (.letters (by decide)))
    exact .cons (.ok (.refl _)) (.cons (.ok ⟨rfl,rfl,.some same⟩) .nil)

end Live
end Jmap
