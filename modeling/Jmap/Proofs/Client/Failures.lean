import Jmap.Proofs.Client.Wire

/-! Which failures are measured. -/
namespace Jmap
open Json Outcome

namespace Effect
variable {B C : Type}

/-- No failure goes without being measured. -/
def IsCounted (effect : Effect B) : Prop := ∀ fault, effect.outcome = .error fault → fault.kind ≠ none

theorem isCounted_of_ok {effect : Effect B} {value : B} (succeeded : effect.outcome = .ok value) : effect.IsCounted := by
  intro fault failed
  rw [succeeded] at failed
  contradiction

theorem isCounted_blame (kind : FailureKind) (outcome : Except Error B) :
    (settled (Fault.blame (some kind) outcome)).IsCounted := by
  intro fault failed
  cases outcome <;> cases failed
  exact Option.some_ne_none kind

theorem IsCounted.andThen {effect : Effect B} {next : B → Effect C} (first : effect.IsCounted)
    (rest : ∀ value, (next value).IsCounted) : (effect.andThen next).IsCounted := by
  intro fault failed
  cases outcome : effect.outcome with
  | error earlier =>
    rw [andThen_of_error outcome] at failed
    cases failed
    exact first fault outcome
  | ok value =>
    rw [andThen_of_ok outcome] at failed
    exact rest value fault failed

theorem isCounted_exchanged (exchange : Exchange) : (exchanged exchange).IsCounted := by
  intro fault failed
  rw [exchanged_eq] at failed
  obtain ⟨kind,measured⟩ := Exchange.kind_of_reply failed
  simp [measured]

theorem isCounted_posted (exchange : Exchange) (calls : Nat) : (posted exchange calls).IsCounted := by
  refine (isCounted_exchanged exchange).andThen fun reply => ?_
  have returned : (andThen (noted [.calls calls]) fun _ => settled (.ok reply)).outcome = .ok reply := rfl
  exact isCounted_of_ok returned

theorem isCounted_limited (name : String) (amount : Nat) (limit : UnsignedInt) :
    (settled (Client.limited name amount limit)).IsCounted := by
  intro fault failed
  unfold Client.limited at failed
  split at failed <;> cases failed
  exact Option.some_ne_none _

section
variable {A : Type} {client : Client A} (named : client.sessionEndpoint ≠ "") (state : ClientState)
include named

theorem isCounted_fetching : (client.fetching state).IsCounted := by
  rcases client.fetching_of_named named state with ⟨fault,kind,_,measured,effect⟩ | ⟨session,_,effect⟩
  · intro other failed
    rw [effect] at failed
    cases failed
    simp [measured]
  · rw [effect]
    exact isCounted_of_ok rfl

theorem isCounted_obtaining : (client.obtaining state).IsCounted :=
  of_obtaining (fun _ => isCounted_of_ok rfl) (isCounted_fetching named state)

theorem isCounted_withSession {next : ClientState → Session → Effect B}
    (rest : ∀ after session, (next after session).IsCounted) : (client.withSession state next).IsCounted :=
  (isCounted_obtaining named state).andThen fun session => rest _ session

theorem isCounted_uploading (account : Id) (contentType : String) (data : ByteArray) :
    (client.uploading state account contentType data).IsCounted := by
  refine isCounted_withSession named state fun after session => ?_
  refine (isCounted_limited _ _ _).andThen fun _ => (isCounted_exchanged _).andThen fun reply => ?_
  exact isCounted_blame .serialization _

theorem isCounted_downloading (account blob : Id) (name contentType : String) :
    (client.downloading state account blob name contentType).IsCounted := by
  refine isCounted_withSession named state fun after session => ?_
  exact (isCounted_exchanged _).andThen fun reply => isCounted_of_ok rfl

theorem kind_of_sending [Writable B] {registry : Registry B} {request : Request B} {fault : Fault}
    (failed : (client.sending state registry request).outcome = .error fault) :
    fault.kind = none ↔ ∃ session error, client.available? state = some session ∧
      request.calls.length ≤ session.core.maxCallsInRequest.value ∧ request.encode = .error error := by
  rw [Client.sending,if_neg named] at failed
  cases obtained : (client.obtaining state).outcome with
  | error earlier =>
    rw [Client.withSession,andThen_of_error obtained] at failed
    cases failed
    have counted := isCounted_obtaining named state fault obtained
    have missing (session : Session) : client.available? state ≠ some session := by
      rw [ne_eq,← Client.obtaining_outcome_iff,obtained]
      simp
    simp [counted,missing]
  | ok session =>
    have available := Client.obtaining_outcome_iff.mp obtained
    rw [Client.withSession_outcome available] at failed
    simp only [available,Option.some.injEq,exists_and_left,exists_eq_left']
    unfold Client.limited at failed
    split at failed
    next beyond =>
      cases failed
      simp [Nat.not_le_of_lt beyond]
    next within =>
      replace within := Nat.le_of_not_lt within
      cases encoded : request.encode with
      | error error =>
        rw [encoded] at failed
        cases failed
        simp [within]
      | ok body =>
        have counted : fault.kind ≠ none := by
          rw [encoded] at failed
          refine IsCounted.andThen (isCounted_posted _ _) (fun reply => ?_) fault failed
          exact isCounted_blame .serialization _
        simp [counted]

end
end Effect

namespace Operation
variable {A : Type} [Writable A] {client : Client A} {state : ClientState} {operation : Operation A}

/-- The failures that are not measured: without an endpoint, of calls that cannot be
written, and of an echo that has been answered. -/
inductive Uncounted (client : Client A) (state : ClientState) : Operation A → Prop where
  | refused {operation : Operation A} (unnamed : client.sessionEndpoint = "") : Uncounted client state operation
  | unwritten {operation : Operation A} {session : Session} {error : Error}
    (available : client.available? state = some session)
    (within : operation.calls ≤ session.core.maxCallsInRequest.value)
    (unwritten : operation.body? = some (.error error)) : Uncounted client state operation
  | answered {response : Response (SortedMap Value)}
    (sent : (Action.apply (client.sendWith Client.echoRegistry Client.echoRequest) state).1 = .ok response) :
    Uncounted client state .echo

theorem not_uncounted (named : client.sessionEndpoint ≠ "") (silent : operation.body? = none) :
    ¬operation.Uncounted client state := by
  intro uncounted
  cases uncounted with
  | refused unnamed => exact named unnamed
  | unwritten _ _ unwritten => simp [silent] at unwritten
  | answered _ => simp [body?] at silent

theorem uncounted_iff_of_sending {B : Type} [Writable B] {registry : Registry B} {request : Request B} {fault : Fault}
    (named : client.sessionEndpoint ≠ "") (calls : operation.calls = request.calls.length)
    (body : operation.body? = some request.encode)
    (unanswered : operation = .echo →
      ∃ error, (Action.apply (client.sendWith Client.echoRegistry Client.echoRequest) state).1 = .error error)
    (failed : (client.sending state registry request).outcome = .error fault) :
    fault.kind = none ↔ operation.Uncounted client state := by
  rw [Effect.kind_of_sending named state failed]
  constructor
  · rintro ⟨session,error,available,within,unwritten⟩
    exact .unwritten available (calls ▸ within) (by rw [body,unwritten])
  · intro uncounted
    cases uncounted with
    | refused unnamed => exact absurd unnamed named
    | @unwritten _ session error available within unwritten =>
      exact ⟨session,error,available,calls ▸ within,Option.some.inj (body.symm.trans unwritten)⟩
    | answered sent =>
      obtain ⟨error,failed⟩ := unanswered rfl
      rw [failed] at sent
      contradiction

theorem kind_of_named (named : client.sessionEndpoint ≠ "") {fault : Fault}
    (failed : (operation.effect client state).outcome = .error fault) :
    fault.kind = none ↔ operation.Uncounted client state := by
  have counted (silent : operation.body? = none) (counted : (operation.effect client state).IsCounted) :
      fault.kind = none ↔ operation.Uncounted client state :=
    iff_of_false (counted fault failed) (not_uncounted named silent)
  cases operation with
  | updateSession => exact counted rfl (Effect.isCounted_fetching named state)
  | session => exact counted rfl (Effect.isCounted_obtaining named state)
  | cachedSession => exact counted rfl (Effect.isCounted_of_ok rfl)
  | send request => exact uncounted_iff_of_sending named rfl rfl nofun failed
  | sendWith registry request => exact uncounted_iff_of_sending named rfl rfl nofun failed
  | echo =>
    have sent := (client.sendWith_hasEffect state Client.echoRegistry Client.echoRequest).result
    change (client.echoing state).outcome = _ at failed
    unfold Client.echoing at failed
    cases outcome : (client.sending state Client.echoRegistry Client.echoRequest).outcome with
    | error earlier =>
      rw [Effect.andThen_of_error outcome] at failed
      cases failed
      rw [outcome] at sent
      exact uncounted_iff_of_sending named rfl rfl (fun _ => ⟨fault.error,sent⟩) outcome
    | ok response =>
      -- Calls that have come back leave only the result itself to fail.
      rw [outcome] at sent
      rw [Effect.andThen_of_ok outcome] at failed
      refine iff_of_true ?_ (.answered sent)
      cases echoed : Client.echoed response <;> rw [echoed] at failed <;> cases failed
      rfl
  | upload account contentType data => exact counted rfl (Effect.isCounted_uploading named state _ _ _)
  | download account blob => exact counted rfl (Effect.isCounted_downloading named state _ _ _ _)
  | downloadAs account blob name contentType => exact counted rfl (Effect.isCounted_downloading named state _ _ _ _)

theorem kind_of_failed (empty : client.sessionEndpoint = "" → state.session = none) {fault : Fault}
    (failed : (operation.effect client state).outcome = .error fault) :
    fault.kind = none ↔ operation.Uncounted client state := by
  by_cases unnamed : client.sessionEndpoint = ""
  · by_cases reads : operation = .cachedSession
    -- To look at what is kept is the one operation that needs no endpoint.
    · subst reads
      contradiction
    · rw [effect_of_unnamed unnamed (empty unnamed) reads] at failed
      cases failed
      exact iff_of_true rfl (.refused unnamed)
  · exact kind_of_named unnamed failed

end Operation
end Jmap
