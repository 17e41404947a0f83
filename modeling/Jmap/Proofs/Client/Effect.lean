import Jmap.Client
import Jmap.Proofs.Outcome

/-! What each action of a client does, as a value: the exchanges it makes, the session
it fetches, what it measures and what comes of it. The state behind the action is the
state before it with all of that added. -/
namespace Jmap
open Json Outcome

/-- A failure, and the kind under which it is measured. -/
structure Fault where
  error : Error
  kind : Option FailureKind

namespace Fault
variable {B : Type}

def measurements (fault : Fault) : Ledger := fault.kind.toList.map .failure

def blame (kind : Option FailureKind) (outcome : Except Error B) : Except Fault B := outcome.mapError (⟨·,kind⟩)

end Fault

namespace Exchange

def isAccepted (exchange : Exchange) : Bool :=
  match exchange.result with
  | .ok reply => reply.isSuccess
  | .error _ => false

def reply (exchange : Exchange) : Except Fault HttpReply :=
  match exchange.result with
  | .error error => .error ⟨error,some .transport⟩
  | .ok reply =>
    if reply.isSuccess then .ok reply
    else match reply.toError with
      | .request problem => .error ⟨.request problem,some .request⟩
      | error => .error ⟨error,some .http⟩

/-- The session in the body, whole and with its core capability. -/
def session? (exchange : Exchange) : Option Session :=
  match exchange.kind,exchange.result with
  | .session,.ok reply => if reply.isSuccess then (Session.reader.ofBytes reply.body).toOption else none
  | _,_ => none

def measurements (exchange : Exchange) : Ledger :=
  [.request exchange.kind exchange.isAccepted,.duration exchange.kind exchange.isAccepted]

theorem reply_eq_ok_iff {exchange : Exchange} {reply : HttpReply} :
    exchange.reply = .ok reply ↔ exchange.result = .ok reply ∧ reply.isSuccess := by
  obtain ⟨kind,request,result⟩ := exchange
  unfold Exchange.reply
  cases result with
  | error error => simp
  | ok found =>
    by_cases success : found.isSuccess
    · simp [success]
      rintro rfl
      exact success
    · simp only [if_neg success]
      cases found.toError <;> simp <;> rintro rfl <;> simp [success]

theorem isAccepted_iff {exchange : Exchange} : exchange.isAccepted ↔ ∃ reply, exchange.reply = .ok reply := by
  simp only [reply_eq_ok_iff]
  unfold isAccepted
  split <;> simp_all

theorem session?_eq_some_iff {exchange : Exchange} {session : Session} :
    exchange.session? = some session ↔ exchange.kind = .session ∧
      ∃ reply, exchange.reply = .ok reply ∧ Session.reader.ofBytes reply.body = .ok session := by
  simp only [reply_eq_ok_iff]
  unfold session?
  constructor
  · intro found
    split at found
    next reply kind result =>
      split at found
      next success => exact ⟨kind,reply,⟨result,success⟩,toOption_eq_some_iff.mp found⟩
      next => contradiction
    next => contradiction
  · rintro ⟨kind,reply,⟨result,success⟩,decoded⟩
    simp [kind,result,success,decoded,Except.toOption]

theorem kind_of_reply {exchange : Exchange} {fault : Fault} (failed : exchange.reply = .error fault) :
    ∃ kind, fault.kind = some kind := by
  unfold Exchange.reply at failed
  split at failed
  · cases failed
    exact ⟨_,rfl⟩
  · split at failed
    · contradiction
    · split at failed <;> cases failed <;> exact ⟨_,rfl⟩

end Exchange

structure Effect (B : Type) where
  exchanges : List Exchange
  fetched : Option Session
  measured : Ledger
  outcome : Except Fault B

namespace Effect
variable {B C : Type}

/-- A failure is measured under its kind. -/
def settled : Except Fault B → Effect B
  | .ok value => ⟨[],none,[],.ok value⟩
  | .error fault => ⟨[],none,fault.measurements,.error fault⟩

def noted (measurements : Ledger) : Effect Unit := ⟨[],none,measurements,.ok ()⟩

/-- What comes behind a failure is left out. -/
def andThen (effect : Effect B) (next : B → Effect C) : Effect C :=
  match effect.outcome with
  | .ok value =>
    ⟨effect.exchanges ++ (next value).exchanges,(next value).fetched.or effect.fetched,
      effect.measured ++ (next value).measured,(next value).outcome⟩
  | .error fault => ⟨effect.exchanges,effect.fetched,effect.measured,.error fault⟩

def exchanged (exchange : Exchange) : Effect HttpReply :=
  andThen ⟨[exchange],none,[],.ok ()⟩ fun _ => (noted exchange.measurements).andThen fun _ => settled exchange.reply

def refreshed (session : Session) : Effect Session := ⟨[],some session,[.sessionRefresh],.ok session⟩

theorem andThen_of_ok {effect : Effect B} {value : B} (succeeded : effect.outcome = .ok value) (next : B → Effect C) :
    effect.andThen next = ⟨effect.exchanges ++ (next value).exchanges,(next value).fetched.or effect.fetched,
      effect.measured ++ (next value).measured,(next value).outcome⟩ := by
  rw [andThen,succeeded]

theorem andThen_of_error {effect : Effect B} {fault : Fault} (failed : effect.outcome = .error fault)
    (next : B → Effect C) :
    effect.andThen next = ⟨effect.exchanges,effect.fetched,effect.measured,.error fault⟩ := by
  rw [andThen,failed]

theorem settled_outcome (outcome : Except Fault B) : (settled outcome).outcome = outcome := by
  cases outcome <;> rfl

@[simp] theorem settled_ok_andThen (value : B) (next : B → Effect C) :
    (settled (.ok value)).andThen next = next value := by
  rw [andThen_of_ok rfl]
  simp [settled]

theorem andThen_assoc {D : Type} (effect : Effect B) (next : B → Effect C) (last : C → Effect D) :
    (effect.andThen next).andThen last = effect.andThen fun value => (next value).andThen last := by
  cases first : effect.outcome with
  | error fault => rw [andThen_of_error first,andThen_of_error first,andThen_of_error rfl]
  | ok value =>
    rw [andThen_of_ok first,andThen_of_ok first]
    cases second : (next value).outcome with
    | error fault => rw [andThen_of_error rfl,andThen_of_error second]
    | ok result =>
      rw [andThen_of_ok second,andThen_of_ok (B := C) (C := D) rfl]
      simp [Option.or_assoc]

theorem andThen_settled_exchanges (effect : Effect B) (read : B → Except Fault C) :
    (effect.andThen fun value => settled (read value)).exchanges = effect.exchanges := by
  cases outcome : effect.outcome with
  | error fault => rw [andThen_of_error outcome]
  | ok value =>
    rw [andThen_of_ok outcome]
    cases read value <;> exact List.append_nil _

theorem exchanged_eq (exchange : Exchange) :
    exchanged exchange =
      ⟨[exchange],none,exchange.measurements ++ (settled exchange.reply).measured,exchange.reply⟩ := by
  cases replied : exchange.reply <;> simp [exchanged,noted,replied,settled,andThen]

end Effect

namespace Client
variable {A B : Type}

/-- Measurements are kept only under a name. -/
def kept (client : Client A) (measurements : Ledger) : Ledger :=
  if client.scope.isSome then measurements else []

def advance (client : Client A) (state : ClientState) (effect : Effect B) : ClientState :=
  ⟨effect.fetched.or state.session,state.log ++ effect.exchanges,state.ledger ++ client.kept effect.measured⟩

theorem requests_advance (client : Client A) (state : ClientState) (effect : Effect B) :
    (client.advance state effect).requests = state.requests ++ effect.exchanges.map (·.request) := by
  simp [ClientState.requests,advance]

theorem kept_append (client : Client A) (first second : Ledger) :
    client.kept (first ++ second) = client.kept first ++ client.kept second := by
  unfold kept
  split <;> rfl

theorem kept_nil (client : Client A) : client.kept [] = [] := by
  unfold kept
  split <;> rfl

theorem advance_settled_ok (client : Client A) (state : ClientState) (value : B) :
    client.advance state (Effect.settled (.ok value)) = state := by
  simp [advance,Effect.settled,kept_nil]

end Client

namespace Action
variable {A B C : Type} {client : Client A} {state : ClientState}

def apply (action : Action B) (state : ClientState) : Except Error B × ClientState := action.run.run state

def HasEffect (action : Action B) (client : Client A) (state : ClientState) (effect : Effect B) : Prop :=
  apply action state = (effect.outcome.mapError Fault.error,client.advance state effect)

theorem HasEffect.result {action : Action B} {effect : Effect B} (acts : HasEffect action client state effect) :
    (apply action state).1 = effect.outcome.mapError Fault.error := congrArg Prod.fst acts

theorem HasEffect.behind {action : Action B} {effect : Effect B} (acts : HasEffect action client state effect) :
    (apply action state).2 = client.advance state effect := congrArg Prod.snd acts

theorem apply_bind (action : Action B) (next : B → Action C) (state : ClientState) :
    apply (action >>= next) state =
      match apply action state with
      | (.ok value,after) => apply (next value) after
      | (.error error,after) => (.error error,after) := by
  have opened : apply (action >>= next) state =
      ExceptT.bindCont next (apply action state).1 (apply action state).2 := rfl
  rw [opened]
  rcases apply action state with ⟨_ | _,after⟩ <;> rfl

theorem HasEffect.bind {action : Action B} {next : B → Action C} {effect : Effect B} {effects : B → Effect C}
    (first : HasEffect action client state effect)
    (rest : ∀ value, effect.outcome = .ok value →
      HasEffect (next value) client (client.advance state effect) (effects value)) :
    HasEffect (action >>= next) client state (effect.andThen effects) := by
  obtain ⟨exchanges,fetched,measured,outcome⟩ := effect
  rw [HasEffect,apply_bind,first]
  cases outcome with
  | error fault => rfl
  | ok value =>
    have following := rest value rfl
    rw [HasEffect] at following
    simp only [mapError_ok,following,Effect.andThen]
    simp [Client.advance,Client.kept_append,Option.or_assoc]

theorem HasEffect.settled_bind {action : Action B} {next : B → Action C} {outcome : Except Fault B}
    {effects : B → Effect C} (first : HasEffect action client state (.settled outcome))
    (rest : ∀ value, outcome = .ok value → HasEffect (next value) client state (effects value)) :
    HasEffect (action >>= next) client state ((Effect.settled outcome).andThen effects) := by
  refine first.bind fun value succeeded => ?_
  cases outcome with
  | error => contradiction
  | ok result =>
    rw [client.advance_settled_ok]
    exact rest value (by simpa [Effect.settled] using succeeded)

theorem hasEffect_pure (value : B) : HasEffect (pure value) client state (.settled (.ok value)) := by
  simp [HasEffect,Effect.settled,Client.advance,Client.kept_nil]
  rfl

theorem hasEffect_throw (error : Error) : HasEffect (throw error : Action B) client state (.settled (.error ⟨error,none⟩)) := by
  simp [HasEffect,Effect.settled,Fault.measurements,Client.advance,Client.kept_nil]
  rfl

theorem hasEffect_throw_bind (error : Error) (next : B → Action C) :
    HasEffect (throw error >>= next) client state (.settled (.error ⟨error,none⟩)) := by
  have thrown : apply (throw error : Action B) state = (.error error,state) := rfl
  rw [HasEffect,apply_bind,thrown]
  simp [Effect.settled,Fault.measurements,Client.advance,Client.kept_nil]

theorem HasEffect.get_bind {next : ClientState → Action B} {effect : Effect B}
    (rest : HasEffect (next state) client state effect) : HasEffect (get >>= next) client state effect := by
  rw [HasEffect,apply_bind]
  exact rest

theorem hasEffect_record (client : Client A) (state : ClientState) (measurements : Ledger) :
    HasEffect (client.record measurements) client state (.noted measurements) := by
  unfold Client.record HasEffect Client.advance Client.kept
  split
  · simp [Effect.noted]
    rfl
  · simp [Effect.noted]
    rfl

theorem hasEffect_fail (client : Client A) (state : ClientState) (kind : FailureKind) (error : Error) :
    HasEffect (client.record [.failure kind] >>= fun _ => throw error : Action B) client state
      (.settled (.error ⟨error,some kind⟩)) := by
  rw [HasEffect,apply_bind,hasEffect_record]
  rfl

theorem hasEffect_lift (result : Except Error B) :
    HasEffect (liftM result : Action B) client state (.settled (Fault.blame none result)) := by
  cases result with
  | ok value => exact hasEffect_pure value
  | error error => exact hasEffect_throw error

theorem HasEffect.log_bind {next : Unit → Action B} {effect : Effect B} (exchange : Exchange)
    (rest : HasEffect (next ()) client {state with log := state.log ++ [exchange]} effect) :
    HasEffect (modify (fun state => {state with log := state.log ++ [exchange]}) >>= next) client state
      (Effect.andThen ⟨[exchange],none,[],.ok ()⟩ fun _ => effect) := by
  have logged : HasEffect (modify fun state => {state with log := state.log ++ [exchange]}) client state
      ⟨[exchange],none,[],.ok ()⟩ := by
    simp [HasEffect,Client.advance,Client.kept_nil]
    rfl
  refine logged.bind fun value _ => ?_
  have same : client.advance state (⟨[exchange],none,[],.ok ()⟩ : Effect Unit) =
      {state with log := state.log ++ [exchange]} := by
    simp [Client.advance,Client.kept_nil]
  rw [same]
  exact rest

end Action
end Jmap
