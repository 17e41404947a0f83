import Jmap.Proofs.Client.Cache

/-! Which requests go out. What an operation sends is said here without saying how it is
found out: the session is fetched where it is missing, and at most one more exchange
follows, under conditions on the session alone. -/
namespace Jmap
open Json Outcome

namespace Client
variable {A : Type}

def fetch (client : Client A) (state : ClientState) : List Exchange :=
  if client.sessionEndpoint = "" then [] else [client.sessionExchange state]

/-- A session is fetched only where none is kept. -/
def opening (client : Client A) (state : ClientState) : List Exchange :=
  match state.session with
  | some _ => []
  | none => client.fetch state

def available? (client : Client A) (state : ClientState) : Option Session :=
  (latestSession (client.opening state)).or state.session

theorem fetching_exchanges (client : Client A) (state : ClientState) :
    (client.fetching state).exchanges = client.fetch state := by
  unfold fetch
  split
  next unnamed => rw [fetching,if_pos unnamed]; rfl
  next named =>
    rcases client.fetching_of_named named state with ⟨fault,_,_,_,effect⟩ | ⟨session,_,effect⟩ <;> rw [effect]

theorem obtaining_exchanges (client : Client A) (state : ClientState) :
    (client.obtaining state).exchanges = client.opening state := by
  unfold obtaining opening
  cases state.session with
  | some known => rfl
  | none => exact client.fetching_exchanges state

theorem fetching_outcome_iff {client : Client A} {state : ClientState} {session : Session} :
    (client.fetching state).outcome = .ok session ↔ latestSession (client.fetch state) = some session := by
  unfold fetch
  split
  next unnamed => simp [fetching,unnamed,Effect.settled,latestSession]
  next named =>
    rcases client.fetching_of_named named state with ⟨fault,_,nothing,_,effect⟩ | ⟨other,found,effect⟩
    · simp [effect,latestSession,nothing]
    · simp [effect,latestSession,found]

theorem obtaining_outcome_iff {client : Client A} {state : ClientState} {session : Session} :
    (client.obtaining state).outcome = .ok session ↔ client.available? state = some session := by
  unfold obtaining available? opening
  cases state.session with
  | some known => simp [Effect.settled,latestSession]
  | none => simp [fetching_outcome_iff]

theorem withSession_outcome {B : Type} {client : Client A} {state : ClientState} {session : Session}
    (available : client.available? state = some session) (next : ClientState → Session → Effect B) :
    (client.withSession state next).outcome =
      (next (client.advance state (client.obtaining state)) session).outcome := by
  rw [withSession,Effect.andThen_of_ok (obtaining_outcome_iff.mpr available)]

end Client

namespace Operation
variable {A : Type} [Writable A]

def body? : Operation A → Option (Except Error Raw)
  | send request => some request.encode
  | sendWith _ request => some request.encode
  | echo => some Client.echoRequest.encode
  | _ => none

/-- The request that an operation makes for its own sake, once there is a session. -/
inductive Makes (client : Client A) (session : Session) : Operation A → ExchangeKind → HttpRequest → Prop where
  | calls {operation : Operation A} {body : Raw} (named : client.sessionEndpoint ≠ "")
    (within : operation.calls ≤ session.core.maxCallsInRequest.value) (written : operation.body? = some (.ok body)) :
    Makes client session operation .api
      (.post session.apiUrl client.authorization "application/json" body.text.toUTF8)
  | upload {account : Id} {contentType : String} {data : ByteArray}
    (within : data.size ≤ session.core.maxSizeUpload.value) :
    Makes client session (.upload account contentType data) .upload
      (.post (session.uploadUrlFor account) client.authorization contentType data)
  | download {account blob : Id} :
    Makes client session (.download account blob) .download
      (.get (session.downloadUrlFor account blob blob.text "application/octet-stream") client.authorization)
  | downloadAs {account blob : Id} {name contentType : String} :
    Makes client session (.downloadAs account blob name contentType) .download
      (.get (session.downloadUrlFor account blob name contentType) client.authorization)

def opening (client : Client A) (state : ClientState) : Operation A → List Exchange
  | updateSession => client.fetch state
  | cachedSession => []
  | _ => client.opening state

/-- The exchanges of an operation, from the first to the last. -/
inductive Wire (client : Client A) (state : ClientState) (operation : Operation A) : List Exchange → Prop where
  | opening (nothing : ∀ session, client.available? state = some session → ∀ kind request,
      ¬operation.Makes client session kind request) : Wire client state operation (operation.opening client state)
  | own {session : Session} {kind : ExchangeKind} {request : HttpRequest}
    (available : client.available? state = some session) (makes : operation.Makes client session kind request) :
    Wire client state operation (operation.opening client state ++ [⟨kind,request,
      client.transport (state.requests ++ (operation.opening client state).map (·.request)) request⟩])

/-- The limit of the session that an operation breaks. -/
def exceeded? (session : Session) : Operation A → Option String
  | upload _ _ data => if session.core.maxSizeUpload.value < data.size then some "maxSizeUpload" else none
  | operation => if session.core.maxCallsInRequest.value < operation.calls then some "maxCallsInRequest" else none

variable {client : Client A} {state : ClientState} {operation : Operation A}

theorem Wire.withSession {B : Type} {next : ClientState → Session → Effect B}
    (opens : operation.opening client state = client.opening state)
    (own : ∀ after session,
      ((next after session).exchanges = [] ∧ ∀ kind request, ¬operation.Makes client session kind request) ∨
      ∃ kind request, (next after session).exchanges = [client.meet after kind request] ∧
        operation.Makes client session kind request) :
    Wire client state operation (client.withSession state next).exchanges := by
  have exchanges := client.obtaining_exchanges state
  unfold Client.withSession
  cases obtained : (client.obtaining state).outcome with
  | error fault =>
    rw [Effect.andThen_of_error obtained,exchanges,← opens]
    refine .opening fun session available => ?_
    rw [← Client.obtaining_outcome_iff,obtained] at available
    contradiction
  | ok session =>
    have available := Client.obtaining_outcome_iff.mp obtained
    rw [Effect.andThen_of_ok obtained]
    dsimp only
    rw [exchanges,← opens]
    rcases own (client.advance state (client.obtaining state)) session with ⟨none,nothing⟩ | ⟨kind,request,one,makes⟩
    · rw [none,List.append_nil]
      refine .opening fun other found => ?_
      cases available.symm.trans found
      exact nothing
    · rw [one,Client.meet,Client.requests_advance,exchanges,← opens]
      exact .own available makes

theorem Wire.sending {B : Type} [Writable B] {registry : Registry B} {request : Request B}
    (opens : operation.opening client state = client.opening state) (calls : operation.calls = request.calls.length)
    (body : operation.body? = some request.encode) :
    Wire client state operation (client.sending state registry request).exchanges := by
  unfold Client.sending
  split
  next unnamed =>
    have silent : operation.opening client state = [] := by
      rw [opens,Client.opening,Client.fetch,if_pos unnamed]
      split <;> rfl
    have wire : Wire client state operation (operation.opening client state) := by
      refine .opening fun session _ kind request makes => ?_
      cases makes with
      | calls named => exact named unnamed
      | _ => cases body
    rw [silent] at wire
    exact wire
  next named =>
    refine Wire.withSession opens fun after session => ?_
    unfold Client.limited
    split
    next beyond =>
      refine .inl ⟨rfl,fun kind request makes => ?_⟩
      cases makes with
      | calls _ within => omega
      | _ => cases body
    next within =>
      cases written : request.encode with
      | error error =>
        refine .inl ⟨rfl,fun kind request makes => ?_⟩
        cases makes with
        | calls _ _ other => simp [body,written] at other
        | _ => cases body
      | ok raw =>
        refine .inr ⟨_,_,?_,.calls named (by omega) (by rw [body,written])⟩
        exact (Effect.andThen_settled_exchanges ..).trans (Effect.posted_exchanges ..)

theorem Wire.uploading {account : Id} {contentType : String} {data : ByteArray} :
    Wire client state (.upload account contentType data)
      (client.uploading state account contentType data).exchanges := by
  refine Wire.withSession rfl fun after session => ?_
  unfold Client.limited
  split
  next beyond =>
    refine .inl ⟨rfl,fun kind request makes => ?_⟩
    cases makes with
    | calls _ _ written => cases written
    | upload within => omega
  next within =>
    refine .inr ⟨_,_,?_,.upload (by omega)⟩
    exact (Effect.andThen_settled_exchanges ..).trans (by rw [Effect.exchanged_eq])

theorem Wire.downloading {account blob : Id} {name contentType : String}
    (opens : operation.opening client state = client.opening state)
    (makes : ∀ session, operation.Makes client session .download
      (.get (session.downloadUrlFor account blob name contentType) client.authorization)) :
    Wire client state operation (client.downloading state account blob name contentType).exchanges := by
  refine Wire.withSession opens fun after session => .inr ⟨_,_,?_,makes session⟩
  exact (Effect.andThen_settled_exchanges ..).trans (by rw [Effect.exchanged_eq])

theorem wire_effect (client : Client A) (state : ClientState) (operation : Operation A) :
    Wire client state operation (operation.effect client state).exchanges := by
  cases operation with
  | updateSession =>
    change Wire _ _ _ (client.fetching state).exchanges
    rw [client.fetching_exchanges]
    exact .opening fun _ _ _ _ => nofun
  | session =>
    change Wire _ _ _ (client.obtaining state).exchanges
    rw [client.obtaining_exchanges]
    exact .opening fun _ _ _ _ => nofun
  | cachedSession => exact .opening fun _ _ _ _ => nofun
  | send request => exact Wire.sending rfl rfl rfl
  | sendWith registry request => exact Wire.sending rfl rfl rfl
  | echo =>
    change Wire _ _ _ (client.echoing state).exchanges
    rw [Client.echoing,Effect.andThen_settled_exchanges]
    exact Wire.sending rfl rfl rfl
  | upload account contentType data => exact Wire.uploading
  | download account blob => exact Wire.downloading rfl fun _ => .download
  | downloadAs account blob name contentType => exact Wire.downloading rfl fun _ => .downloadAs

theorem Makes.authorization {session : Session} {kind : ExchangeKind} {request : HttpRequest}
    (makes : operation.Makes client session kind request) : request.authorization = client.authorization := by
  cases makes <;> rfl

omit [Writable A] in
theorem opening_eq_sessionExchange :
    ∀ exchange ∈ operation.opening client state, exchange = client.sessionExchange state := by
  have fetched : ∀ exchange ∈ client.fetch state, exchange = client.sessionExchange state := by
    unfold Client.fetch
    split <;> simp
  have opened : ∀ exchange ∈ client.opening state, exchange = client.sessionExchange state := by
    unfold Client.opening
    split
    · simp
    · exact fetched
  cases operation with
  | updateSession => exact fetched
  | cachedSession => simp [opening]
  | _ => exact opened

theorem Wire.authorization {made : List Exchange} (wire : operation.Wire client state made) :
    ∀ exchange ∈ made, exchange.request.authorization = client.authorization := by
  have opening : ∀ exchange ∈ operation.opening client state,
      exchange.request.authorization = client.authorization := by
    intro exchange member
    rw [opening_eq_sessionExchange exchange member]
    rfl
  cases wire with
  | opening _ => exact opening
  | own _ makes =>
    intro exchange member
    rcases List.mem_append.mp member with first | second
    · exact opening exchange first
    · rw [List.mem_singleton.mp second]
      exact makes.authorization

omit [Writable A] in
theorem sending_of_exceeded {B : Type} [Writable B] {registry : Registry B} {request : Request B}
    (named : client.sessionEndpoint ≠ "") {session : Session} (available : client.available? state = some session)
    (beyond : session.core.maxCallsInRequest.value < request.calls.length) :
    (client.sending state registry request).outcome =
      .error ⟨.request (.limit "maxCallsInRequest"),some .limit⟩ := by
  rw [Client.sending,if_neg named,Client.withSession_outcome available,Client.limited,if_pos beyond]
  rfl

theorem outcome_of_exceeded (named : client.sessionEndpoint ≠ "") {session : Session}
    (available : client.available? state = some session) {name : String}
    (beyond : operation.exceeded? session = some name) :
    (operation.effect client state).outcome = .error ⟨.request (.limit name),some .limit⟩ := by
  cases operation with
  | send request =>
    obtain ⟨broken,⟨⟩⟩ := Option.ite_none_right_eq_some.mp beyond
    exact sending_of_exceeded named available broken
  | sendWith registry request =>
    obtain ⟨broken,⟨⟩⟩ := Option.ite_none_right_eq_some.mp beyond
    exact sending_of_exceeded named available broken
  | echo =>
    obtain ⟨broken,⟨⟩⟩ := Option.ite_none_right_eq_some.mp beyond
    exact congrArg Effect.outcome (Effect.andThen_of_error (sending_of_exceeded named available broken) _)
  | upload account contentType data =>
    obtain ⟨broken,⟨⟩⟩ := Option.ite_none_right_eq_some.mp beyond
    change (client.uploading state account contentType data).outcome = _
    rw [Client.uploading,Client.withSession_outcome available,Client.limited,if_pos broken]
    rfl
  | _ => simp [exceeded?,calls] at beyond

theorem effect_of_unnamed (unnamed : client.sessionEndpoint = "") (missing : state.session = none)
    (other : operation ≠ .cachedSession) :
    operation.effect client state = .settled (.error ⟨.sessionEndpointMissing,none⟩) := by
  have fetching : client.fetching state = .settled (.error ⟨.sessionEndpointMissing,none⟩) := by
    rw [Client.fetching,if_pos unnamed]
  have obtaining : client.obtaining state = .settled (.error ⟨.sessionEndpointMissing,none⟩) := by
    rw [Client.obtaining,missing,fetching]
  have downloading (account blob : Id) (name contentType : String) :
      client.downloading state account blob name contentType = .settled (.error ⟨.sessionEndpointMissing,none⟩) := by
    rw [Client.downloading,Client.withSession,obtaining]
    rfl
  have sending {B : Type} [Writable B] (registry : Registry B) (request : Request B) :
      client.sending state registry request = .settled (.error ⟨.sessionEndpointMissing,none⟩) := by
    rw [Client.sending,if_pos unnamed]
  cases operation with
  | updateSession => exact fetching
  | session => exact obtaining
  | cachedSession => contradiction
  | send request => exact sending client.registry request
  | sendWith registry request => exact sending registry request
  | echo =>
    change client.echoing state = _
    rw [Client.echoing,sending]
    rfl
  | upload account contentType data =>
    change client.uploading state account contentType data = _
    rw [Client.uploading,Client.withSession,obtaining]
    rfl
  | download account blob => exact downloading account blob blob.text Client.octetStream
  | downloadAs account blob name contentType => exact downloading account blob name contentType

end Operation

namespace Client
variable {A : Type} [Writable A]

theorem after_of_unnamed {client : Client A} (unnamed : client.sessionEndpoint = "")
    (operations : List (Operation A)) :
    (client.after operations).log = [] ∧ (client.after operations).session = none := by
  refine after_induction (P := fun state => state.log = [] ∧ state.session = none) ⟨rfl,rfl⟩ ?_ operations
  -- With a session kept, uploads and downloads would go out without asking for the endpoint.
  rintro state operation ⟨silent,missing⟩
  have exchanges : (operation.effect client state).exchanges = [] := by
    by_cases reads : operation = .cachedSession
    · rw [reads]
      rfl
    · rw [Operation.effect_of_unnamed unnamed missing reads]
      rfl
  rw [next_log,next_session,exchanges,silent,missing]
  exact ⟨rfl,rfl⟩

/-- Every exchange of an operation is one that it has to make, in that order, and there is
no other. -/
theorem exchanges_of_operation (client : Client A) :
    (∀ state (operation : Operation A), ∃ made, (client.next state operation).log = state.log ++ made ∧
      operation.Wire client state made ∧
      ∀ exchange ∈ made, exchange.request.authorization = client.authorization) ∧
    (client.sessionEndpoint ≠ "" → ∀ state (operation : Operation A) session name, client.available? state = some session →
      operation.exceeded? session = some name →
        (Action.apply (operation.perform client) state).1 = .error (.request (.limit name))) ∧
    (client.sessionEndpoint = "" → ∀ operations, (client.after operations).log = [] ∧
      ∀ operation : Operation A, operation ≠ .cachedSession →
        (Action.apply (operation.perform client) (client.after operations)).1 = .error .sessionEndpointMissing) := by
  refine ⟨?_,?_,?_⟩
  · intro state operation
    have wire := operation.wire_effect client state
    exact ⟨_,client.next_log state operation,wire,wire.authorization⟩
  · intro named state operation session name available beyond
    have effect := operation.perform_hasEffect client state
    rw [effect.result,Operation.outcome_of_exceeded named available beyond]
    rfl
  · intro unnamed operations
    obtain ⟨silent,missing⟩ := after_of_unnamed unnamed operations
    refine ⟨silent,fun operation other => ?_⟩
    have effect := operation.perform_hasEffect client (client.after operations)
    rw [effect.result,Operation.effect_of_unnamed unnamed missing other]
    rfl

end Client
end Jmap
