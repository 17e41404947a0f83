import Jmap.Proofs.Client.Operation

/-! The session that a client keeps is that of its latest session exchange which gave one,
throughout every run. -/
namespace Jmap
open Json Outcome

def latestSession (log : List Exchange) : Option Session := (log.filterMap Exchange.session?).getLast?

theorem latestSession_append (first second : List Exchange) :
    latestSession (first ++ second) = (latestSession second).or (latestSession first) := by
  simp [latestSession,List.filterMap_append,List.getLast?_append]

theorem latestSession_of_none {log : List Exchange} (nothing : ∀ exchange ∈ log, exchange.session? = none) :
    latestSession log = none := by
  rw [latestSession,List.filterMap_eq_nil_iff.mpr nothing,List.getLast?_nil]

theorem Exchange.session?_of_kind {exchange : Exchange} (other : exchange.kind ≠ .session) :
    exchange.session? = none := by
  refine Option.eq_none_iff_forall_ne_some.mpr fun session found => ?_
  exact other (Exchange.session?_eq_some_iff.mp found).1

namespace Effect

/-- What is put into the cache is what the exchanges have given. -/
def IsFaithful {B : Type} (effect : Effect B) : Prop := effect.fetched = latestSession effect.exchanges

theorem isFaithful_settled {B : Type} (outcome : Except Fault B) : (settled outcome).IsFaithful := by
  cases outcome <;> rfl

theorem IsFaithful.andThen {B C : Type} {effect : Effect B} {next : B → Effect C} (first : effect.IsFaithful)
    (rest : ∀ value, (next value).IsFaithful) : (effect.andThen next).IsFaithful := by
  cases outcome : effect.outcome with
  | error fault =>
    rw [andThen_of_error outcome]
    exact first
  | ok value =>
    rw [andThen_of_ok outcome,IsFaithful,latestSession_append,← first,← rest value]

theorem isFaithful_exchanged {exchange : Exchange} (other : exchange.kind ≠ .session) :
    (exchanged exchange).IsFaithful := by
  have nothing : latestSession [exchange] = none :=
    latestSession_of_none (by simp [Exchange.session?_of_kind other])
  rw [exchanged_eq,IsFaithful,nothing]

theorem isFaithful_fetching {A : Type} (client : Client A) (state : ClientState) :
    (client.fetching state).IsFaithful := by
  by_cases unnamed : client.sessionEndpoint = ""
  · rw [Client.fetching,if_pos unnamed]
    exact isFaithful_settled _
  · rcases client.fetching_of_named unnamed state with ⟨fault,_,nothing,_,effect⟩ | ⟨session,found,effect⟩
    · simp [effect,IsFaithful,latestSession,nothing]
    · simp [effect,IsFaithful,latestSession,found]

theorem isFaithful_effect {A : Type} [Writable A] (client : Client A) (state : ClientState)
    (operation : Operation A) : (operation.effect client state).IsFaithful := by
  have fetching := isFaithful_fetching client state
  have parts : Composable client state operation.calls IsFaithful :=
    { settled := isFaithful_settled
      andThen := IsFaithful.andThen
      obtaining := of_obtaining (fun _ => rfl) fetching
      posted := by
        intro exchange kind
        have exchanged : (exchanged exchange).IsFaithful := isFaithful_exchanged (by simp [kind])
        exact exchanged.andThen fun _ => IsFaithful.andThen rfl fun _ => isFaithful_settled _
      exchanged := by
        intro exchange kind
        exact isFaithful_exchanged (by rcases kind with kind | kind <;> simp [kind]) }
  exact parts.effect operation fun _ => fetching

theorem fetched_andThen {B C : Type} {effect : Effect B} {next : B → Effect C} (first : effect.fetched = none)
    (rest : ∀ value, (next value).fetched = none) : (effect.andThen next).fetched = none := by
  cases outcome : effect.outcome with
  | error fault => rw [andThen_of_error outcome,first]
  | ok value =>
    rw [andThen_of_ok outcome,first,rest value]
    rfl

theorem fetched_of_known {A : Type} [Writable A] (client : Client A) {state : ClientState} {session : Session}
    (known : state.session = some session) {operation : Operation A} (other : operation ≠ .updateSession) :
    (operation.effect client state).fetched = none := by
  have parts : Composable client state operation.calls fun effect => effect.fetched = none :=
    { settled := by rintro _ (_ | _) <;> rfl
      andThen := fetched_andThen
      obtaining := by rw [Client.obtaining,known]; rfl
      posted := by
        intro exchange _
        exact fetched_andThen (by rw [exchanged_eq]) fun _ => rfl
      exchanged := by
        intro exchange _
        rw [exchanged_eq] }
  exact parts.effect operation fun same => absurd same other

end Effect

namespace Client
variable {A : Type} [Writable A]

theorem next_log (client : Client A) (state : ClientState) (operation : Operation A) :
    (client.next state operation).log = state.log ++ (operation.effect client state).exchanges := by
  rw [next_eq]
  rfl

theorem next_session (client : Client A) (state : ClientState) (operation : Operation A) :
    (client.next state operation).session =
      (latestSession (operation.effect client state).exchanges).or state.session := by
  rw [next_eq,← Effect.isFaithful_effect client state operation]
  rfl

theorem session_after (client : Client A) (operations : List (Operation A)) :
    (client.after operations).session = latestSession (client.after operations).log := by
  refine after_induction (P := fun state => state.session = latestSession state.log) ?_ ?_ operations
  · rfl
  · intro state operation ih
    rw [next_session,next_log,latestSession_append,ih]

omit [Writable A] in
theorem updateSession_returns {client : Client A} {state : ClientState} {session : Session}
    (returned : (Action.apply client.updateSession state).1 = .ok session) :
    (Action.apply client.updateSession state).2.session = some session := by
  have effect := client.updateSession_hasEffect state
  rw [effect.result,mapError_eq_ok_iff] at returned
  have fetched := fetched_of_fetching returned
  rw [effect.behind]
  simp [advance,fetched]

omit [Writable A] in
theorem session_returns {client : Client A} {state : ClientState} {session : Session}
    (returned : (Action.apply client.session state).1 = .ok session) :
    (Action.apply client.session state).2.session = some session := by
  have effect := client.session_hasEffect state
  rw [effect.result,mapError_eq_ok_iff] at returned
  rw [effect.behind]
  unfold obtaining at returned ⊢
  split at returned
  next known found =>
    cases returned
    simp [advance,Effect.settled,found]
  next => simp [advance,fetched_of_fetching returned]

/-- Whatever becomes of an operation, the session kept after it is the latest that was
fetched; a run that is continued by one more operation is a run again. -/
theorem cache_is_latest_session (client : Client A) (operations : List (Operation A)) :
    let state := client.after operations
    state.session = latestSession state.log ∧
      (∀ operation, ∃ made, (client.next state operation).log = state.log ++ made ∧
        ((∀ exchange ∈ made, exchange.session? = none) → (client.next state operation).session = state.session)) ∧
      (∀ operation session, state.session = some session → operation ≠ .updateSession →
        (client.next state operation).session = some session) ∧
      (∀ session, (Action.apply client.updateSession state).1 = .ok session →
        (Action.apply client.updateSession state).2.session = some session) ∧
      (∀ session, (Action.apply client.session state).1 = .ok session →
        (Action.apply client.session state).2.session = some session) ∧
      Action.apply client.cachedSession state = (.ok state.session,state) := by
  intro state
  refine ⟨client.session_after operations,?_,?_,fun _ => updateSession_returns,fun _ => session_returns,rfl⟩
  · intro operation
    refine ⟨_,client.next_log state operation,fun nothing => ?_⟩
    rw [next_session,latestSession_of_none nothing,Option.none_or]
  · intro operation session known other
    rw [next_eq,advance,Effect.fetched_of_known client known other,known]
    rfl

end Client
end Jmap
