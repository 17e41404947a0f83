import Jmap.Proofs.Batch
import Jmap.Proofs.Client.Wire
import Jmap.Proofs.Response.RoundTrip

/-! A batch on its way to a server and the answers on their way back: none is lost, and
each is found under the id of its call. -/
namespace Jmap
open Json Outcome

theorem fromUTF8?_toUTF8 (text : String) : String.fromUTF8? text.toUTF8 = some text := dif_pos text.isValidUTF8

namespace MethodResponse

theorem callId_normalised {A : Type} (entry : MethodResponse A) : entry.normalised.callId = entry.callId := by
  cases entry <;> rfl

end MethodResponse

namespace Response
variable {A : Type}

theorem callIds_normalised (response : Response A) :
    response.normalised.entries.map (·.callId) = response.entries.map (·.callId) := by
  simp [normalised,MethodResponse.callId_normalised]

theorem find?_of_mem {response : Response A} (distinct : (response.entries.map (·.callId)).Nodup)
    {entry : MethodResponse A} (member : entry ∈ response.entries) : response.find? entry.callId = some entry := by
  have known : (response.find? entry.callId).isSome := List.find?_isSome.mpr ⟨entry,member,beq_self_eq_true _⟩
  obtain ⟨first,finds⟩ := Option.isSome_iff_exists.mp known
  change response.entries.find? (·.callId == entry.callId) = _ at finds
  have agrees : first.callId = entry.callId := by simpa using List.find?_some finds
  have same := List.inj_on_of_nodup_map distinct (List.mem_of_find?_eq_some finds) member agrees
  rw [find?,finds,same]

variable [Writable A]

/-- One answer for each call, in the order of the calls, that the registry understands. -/
structure Answers (response : Response A) (registry : Registry A) (calls : List (Invocation A)) : Prop where
  ids : response.entries.map (·.callId) = calls.map (·.callId)
  recovers : ∀ result, .success result ∈ response.entries →
    result.name ≠ MethodError.reservedName ∧ registry.Recovers result
  readsBack : ∀ error : MethodError, .failure error ∈ response.entries → PropertyBag.ReadsBack error.properties

variable {response : Response A} {registry : Registry A} {calls : List (Invocation A)}

theorem Answers.responseOf {written : Raw} {reply : HttpReply} (answers : response.Answers registry calls)
    (encoded : response.encode = .ok written) (body : reply.body = written.text.toUTF8) :
    Client.responseOf registry reply = .ok response.normalised := by
  obtain ⟨triplets,created,entries,createdIds,rfl⟩ := encode_eq_ok_iff.mp encoded
  have readsBack (error : MethodError) (member : .failure error ∈ response.entries) :
      PropertyBag.ReadsBack (error.properties.erase "type") := (answers.readsBack error member).erase "type"
  have decoded := MethodResponse.mapM_ofTriplet entries answers.recovers readsBack
  rw [Client.responseOf,body,fromUTF8?_toUTF8]
  exact decode_writtenMembers response.sessionState createdIds decoded

theorem Answers.find? (answers : response.Answers registry calls) (distinct : (calls.map (·.callId)).Nodup)
    {k : Nat} {call : Invocation A} (position : calls[k]? = some call) :
    ∃ answer, response.entries[k]? = some answer ∧ response.normalised.find? call.callId = some answer.normalised := by
  have ids := congrArg (·[k]?) answers.ids
  simp only [List.getElem?_map,position,Option.map_some] at ids
  obtain ⟨answer,found,same⟩ := Option.map_eq_some_iff.mp ids
  refine ⟨answer,found,?_⟩
  have apart : (response.normalised.entries.map (·.callId)).Nodup := by
    rw [callIds_normalised,answers.ids]
    exact distinct
  have member : answer.normalised ∈ response.normalised.entries :=
    List.mem_map_of_mem (List.mem_of_getElem? found)
  rw [← same,← answer.callId_normalised]
  exact find?_of_mem apart member

end Response

namespace Client
variable {A B : Type}

theorem sending_of_known [Writable B] {client : Client A} {state : ClientState} {session : Session}
    (named : client.sessionEndpoint ≠ "") (known : state.session = some session) {registry : Registry B}
    {request : Request B} {body : Raw} (within : request.calls.length ≤ session.core.maxCallsInRequest.value)
    (encoded : request.encode = .ok body) :
    client.sending state registry request =
      (Effect.posted (client.meet state .api (.post session.apiUrl client.authorization jsonType body.text.toUTF8))
        request.calls.length).andThen fun reply =>
      Effect.settled (Fault.blame (some .serialization) (responseOf registry reply)) := by
  have obtaining : client.obtaining state = .settled (.ok session) := by rw [Client.obtaining,known]
  have allowed : limited "maxCallsInRequest" request.calls.length session.core.maxCallsInRequest = .ok () :=
    if_neg (Nat.not_lt_of_le within)
  rw [sending,if_neg named,withSession,obtaining,Effect.settled_ok_andThen,advance_settled_ok,allowed,
    Effect.settled_ok_andThen,encoded,Fault.blame,mapError_ok,Effect.settled_ok_andThen]

theorem outcome_of_answered [Writable B] {client : Client A} {state : ClientState} {session : Session}
    (named : client.sessionEndpoint ≠ "") (known : state.session = some session) (registry : Registry B)
    {request : Request B} {body : Raw} (within : request.calls.length ≤ session.core.maxCallsInRequest.value)
    (encoded : request.encode = .ok body) {reply : HttpReply}
    (replied : client.transport state.requests (.post session.apiUrl client.authorization jsonType body.text.toUTF8) =
      .ok reply) (success : reply.isSuccess) :
    (client.sending state registry request).outcome =
      Fault.blame (some .serialization) (responseOf registry reply) := by
  have accepted := Exchange.reply_eq_ok_iff.mpr (⟨replied,success⟩ : (client.meet state .api _).result = _ ∧ _)
  have posted := (Effect.posted_outcome _ request.calls.length).trans accepted
  rw [sending_of_known named known within encoded,Effect.andThen_of_ok posted]
  exact Effect.settled_outcome _

theorem named_of_known [Writable A] {client : Client A} {operations : List (Operation A)} {session : Session}
    (known : (client.after operations).session = some session) : client.sessionEndpoint ≠ "" := by
  intro unnamed
  rw [(after_of_unnamed unnamed operations).2] at known
  contradiction

variable [Writable A]

/-- A batch goes out whole, and its answers come back under the ids of its calls. -/
theorem answers_of_batch {client : Client A} {operations : List (Operation A)} {session : Session}
    (known : (client.after operations).session = some session) {steps : List (Batch.Step A)}
    (within : (Batch.build steps).size ≤ session.core.maxCallsInRequest.value)
    (objects : ∀ call ∈ (Batch.build steps).request.calls,
      ∃ raw, Writable.encode call.arguments = .ok raw ∧ raw.isObject) :
    let state := client.after operations
    let request := (Batch.build steps).request
    ∃ body, request.encode = .ok body ∧
      let posted : HttpRequest := .post session.apiUrl client.authorization "application/json" body.text.toUTF8
      (client.next state (.send request)).log =
        state.log ++ [⟨.api,posted,client.transport state.requests posted⟩] ∧
      (∀ server : Registry A, (∀ call ∈ request.calls, server.Recovers call) →
        ∃ text, String.fromUTF8? posted.body = some text ∧ Request.decode server text = .ok request) ∧
      ∀ (reply : HttpReply) (response : Response A) (written : Raw),
        client.transport state.requests posted = .ok reply → reply.isSuccess →
        response.encode = .ok written → reply.body = written.text.toUTF8 →
        response.Answers client.registry request.calls →
          ∃ returned, (Action.apply (client.send request) state).1 = .ok returned ∧
            returned.entries.map (·.callId) = request.calls.map (·.callId) ∧
            ∀ (k : Nat) (call : Invocation A), request.calls[k]? = some call →
              ∃ answer : MethodResponse A, response.entries[k]? = some answer ∧
                returned.find? call.callId = some answer.normalised := by
  intro state request
  have uncreated : request.createdIds = none := Batch.createdIds_build steps
  obtain ⟨body,encoded⟩ := Request.exists_encode uncreated objects
  have named := named_of_known known
  refine ⟨body,encoded,?_,?_,?_⟩
  · rw [next_log]
    change state.log ++ (client.sending state client.registry request).exchanges = _
    rw [sending_of_known named known within encoded,Effect.andThen_settled_exchanges,Effect.posted_exchanges]
    rfl
  · intro server recovers
    obtain ⟨triplets,created,calls,createdIds,rfl⟩ := Request.encode_eq_ok_iff.mp encoded
    have decoded := Invocation.mapM_decodeCall calls recovers
    exact ⟨_,fromUTF8?_toUTF8 _,Request.decode_writtenMembers request.uses createdIds decoded⟩
  · intro reply response written replied success wrote same answers
    refine ⟨response.normalised,?_,response.callIds_normalised.trans answers.ids,fun k call position => ?_⟩
    · have effect := (client.sendWith_hasEffect state client.registry request).result
      have answered := outcome_of_answered named known client.registry within encoded replied success
      rw [answered,answers.responseOf wrote same] at effect
      exact effect
    · exact answers.find? (Batch.callIds_nodup steps) position

theorem answers_of_batch_mixed :
    let decoder : Decoder Value := .typed Reader.value
    let result : Invocation Value := ⟨"Email/get","0",.object [("list",.array [.null])]⟩
    let error : MethodError := ⟨"1",.other "notFound",.ofList [("type",.null),("x",.boolean true)]⟩
    let response : Response Value := ⟨[.success result,.failure error],none,"s2"⟩
    let answer := (response.encode.toOption.map Raw.text).getD ""
    let resource := "\x7b\"capabilities\":\x7b\"urn:ietf:params:jmap:core\":\x7b\"maxCallsInRequest\":2\x7d\x7d\x7d"
    let replies : List (Except Error HttpReply) :=
      [.ok ⟨200,none,resource.toUTF8⟩,.ok ⟨200,none,answer.toUTF8⟩]
    let client : Client Value :=
      ⟨.scripted replies,"https://example.com/jmap","",SortedMap.empty.insert "Email/get" decoder,none⟩
    let steps : List (Batch.Step Value) :=
      [.add "Email/get" (.object []),.use "urn:a",.add "Email/set" (.object [("ifInState",.string "s1")])]
    ∃ returned, (Action.apply (client.send (Batch.build steps).request) (client.after [.session])).1 = .ok returned ∧
      returned.find? "0" = some (.success result) ∧
      returned.find? "1" = some (.failure ⟨"1",.notFound,.ofList [("x",.boolean true)]⟩) := by
  intro decoder result error response answer resource replies client steps
  have cached : (client.after [.session]).session.map (·.core.maxCallsInRequest.value) = some 2 := by decide +kernel
  have asked : (client.after [.session]).requests.length = 1 := by decide +kernel
  obtain ⟨session,known,limit⟩ := Option.map_eq_some_iff.mp cached
  have within : (Batch.build steps).size ≤ session.core.maxCallsInRequest.value := by rw [limit]; decide
  have objects : ∀ call ∈ (Batch.build steps).request.calls,
      ∃ raw, Writable.encode call.arguments = .ok raw ∧ raw.isObject := by
    intro call member
    have calls : (Batch.build steps).request.calls =
      [⟨"Email/get","0",.object []⟩,⟨"Email/set","1",.object [("ifInState",.string "s1")]⟩] := rfl
    simp only [calls,List.mem_cons,List.not_mem_nil,or_false] at member
    rcases member with rfl | rfl <;> exact ⟨_,rfl,rfl⟩
  obtain ⟨written,encoded⟩ : ∃ written, response.encode = .ok written := ⟨_,rfl⟩
  have answers : response.Answers client.registry (Batch.build steps).request.calls := by
    refine ⟨rfl,?_,?_⟩
    · intro other member
      have same : other = result := by simpa [response] using member
      subst same
      exact ⟨by decide,_,_,rfl,rfl,rfl⟩
    · intro other member
      have same : other = error := by simpa [response] using member
      subst same
      rfl
  have text : written.text = answer := by simp [answer,encoded,Except.toOption]
  have replied (posted : HttpRequest) :
      client.transport (client.after [.session]).requests posted = .ok ⟨200,none,written.text.toUTF8⟩ := by
    change (replies[(client.after [.session]).requests.length]?).getD _ = _
    rw [asked,text]
    rfl
  obtain ⟨_,_,_,_,back⟩ := answers_of_batch known within objects
  obtain ⟨returned,sent,_,found⟩ := back _ response written (replied _) rfl encoded rfl answers
  obtain ⟨first,firstAnswer,firstFound⟩ := found 0 _ rfl
  obtain ⟨second,secondAnswer,secondFound⟩ := found 1 _ rfl
  cases firstAnswer
  cases secondAnswer
  exact ⟨returned,sent,firstFound,secondFound⟩

end Client
end Jmap
