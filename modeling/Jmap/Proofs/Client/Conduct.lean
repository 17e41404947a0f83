import Jmap.Proofs.Client.Effect

/-! The effects of what a client does: fetching its session, having one at hand, and the
exchanges for which it needs one. -/
namespace Jmap
open Json Outcome

/-- The calls are measured once the server has accepted them. -/
def Effect.posted (exchange : Exchange) (calls : Nat) : Effect HttpReply :=
  (exchanged exchange).andThen fun reply => (noted [.calls calls]).andThen fun _ => settled (.ok reply)

theorem Effect.posted_exchanges (exchange : Exchange) (calls : Nat) :
    (posted exchange calls).exchanges = [exchange] := by
  rw [posted,exchanged_eq]
  cases exchange.reply <;> rfl

theorem Effect.posted_outcome (exchange : Exchange) (calls : Nat) :
    (posted exchange calls).outcome = exchange.reply := by
  rw [posted,exchanged_eq]
  cases exchange.reply <;> rfl

namespace Client
variable {A B : Type}

def meet (client : Client A) (state : ClientState) (kind : ExchangeKind) (request : HttpRequest) : Exchange :=
  ⟨kind,request,client.transport state.requests request⟩

def limited (name : String) (amount : Nat) (limit : UnsignedInt) : Except Fault Unit :=
  if limit.value < amount then .error ⟨.request (.limit name),some .limit⟩ else .ok ()

end Client

namespace Action
variable {A B : Type} {client : Client A} {state : ClientState}

theorem hasEffect_decoded (client : Client A) (state : ClientState) (result : Except Error B) :
    HasEffect (client.decoded result) client state (.settled (Fault.blame (some .serialization) result)) := by
  cases result with
  | ok value => exact hasEffect_pure value
  | error error => exact hasEffect_fail client state .serialization error

theorem hasEffect_checkLimit (client : Client A) (state : ClientState) (name : String) (amount : Nat)
    (limit : UnsignedInt) :
    HasEffect (client.checkLimit name amount limit) client state (.settled (Client.limited name amount limit)) := by
  unfold Client.checkLimit Client.limited
  split
  · exact hasEffect_fail client state .limit _
  · exact hasEffect_pure ()

theorem hasEffect_exchange (client : Client A) (state : ClientState) (kind : ExchangeKind) (request : HttpRequest) :
    HasEffect (client.exchange kind request) client state (.exchanged (client.meet state kind request)) := by
  unfold Client.exchange
  refine HasEffect.get_bind ?_
  change HasEffect (modify _ >>= _) _ _ (Effect.andThen _ _)
  refine HasEffect.log_bind (client.meet state kind request) ?_
  unfold Client.meet Exchange.measurements Exchange.isAccepted Exchange.reply
  cases client.transport state.requests request with
  | error error => exact (hasEffect_record ..).bind fun _ _ => hasEffect_fail ..
  | ok reply =>
    refine (hasEffect_record ..).bind fun _ _ => ?_
    dsimp only
    split
    · exact hasEffect_pure reply
    · cases reply.toError <;> exact hasEffect_fail ..

end Action

namespace Client

def sessionExchange (client : Client A) (state : ClientState) : Exchange :=
  client.meet state .session (.get client.sessionEndpoint client.authorization)

def fetching (client : Client A) (state : ClientState) : Effect Session :=
  if client.sessionEndpoint = "" then .settled (.error ⟨.sessionEndpointMissing,none⟩)
  else
    (Effect.exchanged (client.sessionExchange state)).andThen fun reply =>
    (Effect.settled (Fault.blame (some .serialization)
      ((Session.reader.ofBytes reply.body).mapError .serialization))).andThen Effect.refreshed

def obtaining (client : Client A) (state : ClientState) : Effect Session :=
  match state.session with
  | some session => .settled (.ok session)
  | none => client.fetching state

/-- A session, and what is done with it in the state in which it has been obtained. -/
def withSession (client : Client A) (state : ClientState) (next : ClientState → Session → Effect B) : Effect B :=
  (client.obtaining state).andThen (next (client.advance state (client.obtaining state)))

def sending [Writable B] (client : Client A) (state : ClientState) (registry : Registry B) (request : Request B) :
    Effect (Response B) :=
  if client.sessionEndpoint = "" then .settled (.error ⟨.sessionEndpointMissing,none⟩)
  else client.withSession state fun after session =>
    (Effect.settled (limited "maxCallsInRequest" request.calls.length session.core.maxCallsInRequest)).andThen fun _ =>
    (Effect.settled (Fault.blame none request.encode)).andThen fun body =>
    (Effect.posted (client.meet after .api (.post session.apiUrl client.authorization jsonType body.text.toUTF8))
      request.calls.length).andThen fun reply =>
    Effect.settled (Fault.blame (some .serialization) (responseOf registry reply))

def uploading (client : Client A) (state : ClientState) (account : Id) (contentType : String) (data : ByteArray) :
    Effect BlobInfo :=
  client.withSession state fun after session =>
    (Effect.settled (limited "maxSizeUpload" data.size session.core.maxSizeUpload)).andThen fun _ =>
    (Effect.exchanged (client.meet after .upload
      (.post (session.uploadUrlFor account) client.authorization contentType data))).andThen fun reply =>
    Effect.settled (Fault.blame (some .serialization) ((BlobInfo.reader.ofBytes reply.body).mapError .serialization))

def downloading (client : Client A) (state : ClientState) (account blob : Id) (name contentType : String) :
    Effect ByteArray :=
  client.withSession state fun after session =>
    (Effect.exchanged (client.meet after .download
      (.get (session.downloadUrlFor account blob name contentType) client.authorization))).andThen fun reply =>
    Effect.settled (.ok reply.body)

theorem hasEffect_refresh (client : Client A) (state : ClientState) (session : Session) :
    Action.HasEffect (do
      modify fun state => {state with session := some session}
      client.record [.sessionRefresh]
      return session) client state (.refreshed session) := by
  rw [Action.HasEffect,Action.apply_bind]
  change Action.apply (client.record [.sessionRefresh] >>= _) {state with session := some session} = _
  rw [Action.apply_bind,Action.hasEffect_record]
  simp [Effect.refreshed,Effect.noted,advance]
  rfl

theorem updateSession_hasEffect (client : Client A) (state : ClientState) :
    Action.HasEffect client.updateSession client state (client.fetching state) := by
  unfold updateSession fetching
  split
  · exact Action.hasEffect_throw_bind ..
  · refine (Action.hasEffect_exchange ..).bind fun reply _ => ?_
    exact (Action.hasEffect_decoded ..).settled_bind fun session _ => hasEffect_refresh ..

theorem fetching_of_named {client : Client A} (named : client.sessionEndpoint ≠ "") (state : ClientState) :
    (∃ fault kind, (client.sessionExchange state).session? = none ∧ fault.kind = some kind ∧
      client.fetching state = ⟨[client.sessionExchange state],none,
        (client.sessionExchange state).measurements ++ fault.measurements,.error fault⟩) ∨
    ∃ session, (client.sessionExchange state).session? = some session ∧
      client.fetching state = ⟨[client.sessionExchange state],some session,
        (client.sessionExchange state).measurements ++ [.sessionRefresh],.ok session⟩ := by
  unfold fetching
  rw [if_neg named]
  have kind : (client.sessionExchange state).kind = .session := rfl
  generalize client.sessionExchange state = exchange at kind ⊢
  cases replied : exchange.reply with
  | error fault =>
    obtain ⟨failure,measured⟩ := Exchange.kind_of_reply replied
    have none : exchange.session? = none := by
      refine Option.eq_none_iff_forall_ne_some.mpr fun session found => ?_
      obtain ⟨_,reply,success,_⟩ := Exchange.session?_eq_some_iff.mp found
      simp [replied] at success
    refine .inl ⟨fault,failure,none,measured,?_⟩
    rw [Effect.exchanged_eq,replied]
    rfl
  | ok reply =>
    cases decoded : Session.reader.ofBytes reply.body with
    | error defect =>
      have none : exchange.session? = none := by
        refine Option.eq_none_iff_forall_ne_some.mpr fun session found => ?_
        obtain ⟨_,other,success,read⟩ := Exchange.session?_eq_some_iff.mp found
        cases replied.symm.trans success
        simp [decoded] at read
      refine .inl ⟨⟨.serialization defect,some .serialization⟩,.serialization,none,rfl,?_⟩
      simp [Effect.exchanged_eq,replied,decoded,Effect.andThen,Effect.settled,Fault.blame]
    | ok session =>
      refine .inr ⟨session,Exchange.session?_eq_some_iff.mpr ⟨kind,reply,replied,decoded⟩,?_⟩
      simp [Effect.exchanged_eq,replied,decoded,Effect.andThen,Effect.settled,Fault.blame,Effect.refreshed]

theorem fetched_of_fetching {client : Client A} {state : ClientState} {session : Session}
    (succeeded : (client.fetching state).outcome = .ok session) :
    (client.fetching state).fetched = some session := by
  by_cases empty : client.sessionEndpoint = ""
  · simp [fetching,empty,Effect.settled] at succeeded
  · rcases fetching_of_named empty state with ⟨fault,_,_,_,effect⟩ | ⟨other,_,effect⟩
    · simp [effect] at succeeded
    · rw [effect] at succeeded ⊢
      cases succeeded
      rfl

theorem session_hasEffect (client : Client A) (state : ClientState) :
    Action.HasEffect client.session client state (client.obtaining state) := by
  unfold session obtaining
  refine Action.HasEffect.get_bind ?_
  cases known : state.session with
  | some session => exact Action.hasEffect_pure session
  | none =>
    have fetched := updateSession_hasEffect client state
    rw [Action.HasEffect] at fetched
    simp only [Action.HasEffect,Action.apply_bind,fetched]
    cases outcome : (client.fetching state).outcome with
    | error fault => rfl
    | ok session =>
      -- What has been fetched is what is kept by then.
      change (Except.ok ((client.advance state (client.fetching state)).session.getD session),_) = _
      simp [advance,fetched_of_fetching outcome]

theorem sendWith_hasEffect [Writable B] (client : Client A) (state : ClientState) (registry : Registry B)
    (request : Request B) :
    Action.HasEffect (client.sendWith registry request) client state (client.sending state registry request) := by
  unfold sendWith sending
  split
  · exact Action.hasEffect_throw_bind ..
  · refine (session_hasEffect client state).bind fun session _ => ?_
    refine (Action.hasEffect_checkLimit ..).settled_bind fun _ _ => ?_
    refine (Action.hasEffect_lift ..).settled_bind fun body _ => ?_
    simp only [Effect.posted,Effect.andThen_assoc,Effect.settled_ok_andThen]
    refine (Action.hasEffect_exchange ..).bind fun reply _ => ?_
    exact (Action.hasEffect_record ..).bind fun _ _ => Action.hasEffect_decoded ..

theorem upload_hasEffect (client : Client A) (state : ClientState) (account : Id) (contentType : String)
    (data : ByteArray) :
    Action.HasEffect (client.upload account contentType data) client state
      (client.uploading state account contentType data) := by
  refine (session_hasEffect client state).bind fun session _ => ?_
  refine (Action.hasEffect_checkLimit ..).settled_bind fun _ _ => ?_
  exact (Action.hasEffect_exchange ..).bind fun reply _ => Action.hasEffect_decoded ..

theorem downloadAs_hasEffect (client : Client A) (state : ClientState) (account blob : Id)
    (name contentType : String) :
    Action.HasEffect (client.downloadAs account blob name contentType) client state
      (client.downloading state account blob name contentType) := by
  refine (session_hasEffect client state).bind fun session _ => ?_
  exact (Action.hasEffect_exchange ..).bind fun reply _ => Action.hasEffect_pure reply.body

end Client
end Jmap
