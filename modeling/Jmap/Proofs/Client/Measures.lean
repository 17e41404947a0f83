import Jmap.Proofs.Client.Booking
import Jmap.Proofs.Client.Failures

/-! What the measurements of a client add up to over a run. Those of its exchanges follow
from its log; an operation adds one failure to them at most. -/
namespace Jmap
open Json Outcome

namespace Fault
variable (fault : Fault)

theorem total_measurements {measurement : Measurement} (other : ∀ kind, measurement.plain ≠ .failure kind) :
    fault.measurements.total measurement = 0 := by
  obtain ⟨error,kind⟩ := fault
  rw [Ledger.total_eq_sum]
  cases kind with
  | none => rfl
  | some kind =>
    have different : (Measurement.failure kind).plain ≠ measurement.plain := (other kind).symm
    simp [measurements,different]

theorem failures_measurements : fault.measurements.failures = if fault.kind = none then 0 else 1 := by
  obtain ⟨error,kind⟩ := fault
  cases kind with
  | none => rfl
  | some kind =>
    simp only [measurements,Ledger.failures,FailureKind.all,Ledger.total_eq_sum]
    cases kind <;> rfl

end Fault

namespace Client
variable {A : Type} [Writable A] {client : Client A}

theorem next_ledger (measured : client.scope.isSome) (state : ClientState) (operation : Operation A) :
    (client.next state operation).ledger = state.ledger ++
      ((operation.effect client state).exchanges.flatMap (Exchange.bill operation.calls) ++
        (Effect.settled (operation.effect client state).outcome).measured) := by
  have booked := Effect.isBooked_effect client state operation
  rw [Effect.IsBooked] at booked
  rw [next_eq,advance,kept,if_pos measured,booked]

theorem total_next (measured : client.scope.isSome) {operation : Operation A} {measurement : Measurement}
    {amount : Nat} {counted : Exchange → Bool} (other : ∀ kind, measurement.plain ≠ .failure kind)
    (single : ∀ exchange, Ledger.total (exchange.bill operation.calls) measurement =
      if counted exchange then amount else 0) (state : ClientState) :
    (client.next state operation).ledger.total measurement =
      state.ledger.total measurement + amount * (operation.effect client state).exchanges.countP counted := by
  have silent : (Effect.settled (operation.effect client state).outcome).measured.total measurement = 0 := by
    cases (operation.effect client state).outcome with
    | ok answer => rw [Effect.settled,Ledger.total_eq_sum]; rfl
    | error fault => exact fault.total_measurements other
  rw [next_ledger measured,Ledger.total_append,Ledger.total_append,Exchange.total_bills _ single,silent]
  rfl

theorem total_after (measured : client.scope.isSome) {measurement : Measurement} {counted : Exchange → Bool}
    (other : ∀ kind, measurement.plain ≠ .failure kind)
    (single : ∀ calls exchange, Ledger.total (Exchange.bill calls exchange) measurement =
      if counted exchange then 1 else 0) (operations : List (Operation A)) :
    (client.after operations).ledger.total measurement = (client.after operations).log.countP counted := by
  refine after_induction (P := fun state => state.ledger.total measurement = state.log.countP counted) ?_ ?_ operations
  · rfl
  · intro state operation ih
    rw [total_next measured other (single operation.calls),next_log,List.countP_append,ih,Nat.one_mul]

def made (client : Client A) (state : ClientState) (operation : Operation A) : List Exchange :=
  (client.next state operation).log.drop state.log.length

/-- The calls of all operations of a run whose calls the server has accepted. -/
def acceptedCalls (client : Client A) : ClientState → List (Operation A) → Nat
  | _,[] => 0
  | state,operation :: operations =>
    (if (client.made state operation).any (·.isOf .api true) then operation.calls else 0) +
      acceptedCalls client (client.next state operation) operations

theorem made_eq (client : Client A) (state : ClientState) (operation : Operation A) :
    client.made state operation = (operation.effect client state).exchanges := by
  rw [made,next_log,List.drop_left]

theorem countP_of_wire {state : ClientState} {operation : Operation A} {made : List Exchange}
    (wire : operation.Wire client state made) : made.countP (·.isOf .api true) ≤ 1 := by
  have opening : (operation.opening client state).countP (·.isOf .api true) = 0 := by
    rw [List.countP_eq_zero]
    intro exchange member
    rw [Operation.opening_eq_sessionExchange exchange member]
    simp [Exchange.isOf,sessionExchange,meet]
  cases wire with
  | opening _ => omega
  | own _ _ =>
    rw [List.countP_append,opening,Nat.zero_add,List.countP_singleton]
    split <;> omega

theorem countP_made (client : Client A) (state : ClientState) (operation : Operation A) :
    (client.made state operation).countP (·.isOf .api true) =
      if (client.made state operation).any (·.isOf .api true) then 1 else 0 := by
  rw [made_eq]
  have once := countP_of_wire (operation.wire_effect client state)
  split
  next some =>
    have positive := List.countP_pos_iff.mpr (List.any_eq_true.mp some)
    omega
  next none =>
    rw [List.countP_eq_zero]
    exact fun exchange member accepted => none (List.any_eq_true.mpr ⟨exchange,member,accepted⟩)

theorem calls_of_run (measured : client.scope.isSome) (state : ClientState) (operations : List (Operation A)) :
    (operations.foldl client.next state).ledger.total (.calls 0) =
      state.ledger.total (.calls 0) + client.acceptedCalls state operations := by
  induction operations generalizing state with
  | nil => rfl
  | cons operation operations ih =>
    have step := total_next measured (by intro kind; simp [Measurement.plain])
      (Exchange.total_bill_calls operation.calls) state
    rw [List.foldl_cons,ih,step,← made_eq,countP_made,acceptedCalls]
    split_ifs <;> omega

theorem failures_next (measured : client.scope.isSome) (state : ClientState) (operation : Operation A) :
    (client.next state operation).ledger.failures = state.ledger.failures +
      (Effect.settled (operation.effect client state).outcome).measured.failures := by
  rw [next_ledger measured,Ledger.failures_append,Ledger.failures_append,Exchange.failures_bills,Nat.zero_add]

theorem failures_of_operation (measured : client.scope.isSome) {state : ClientState}
    (empty : client.sessionEndpoint = "" → state.session = none) (operation : Operation A) :
    let result := (Action.apply (operation.perform client) state).1
    let failures := (client.next state operation).ledger.failures
    (∀ answer, result = .ok answer → failures = state.ledger.failures) ∧
      ∀ error, result = .error error →
        (operation.Uncounted client state → failures = state.ledger.failures) ∧
        (¬operation.Uncounted client state → failures = state.ledger.failures + 1) := by
  have effect := (operation.perform_hasEffect client state).result
  simp only [effect,failures_next measured]
  cases outcome : (operation.effect client state).outcome with
  | ok answer => exact ⟨fun _ _ => rfl,fun _ failed => by contradiction⟩
  | error fault =>
    have kind := Operation.kind_of_failed empty outcome
    have failures := fault.failures_measurements
    refine ⟨fun _ returned => by contradiction,fun _ _ => ⟨fun uncounted => ?_,fun counted => ?_⟩⟩
    · rw [if_pos (kind.mpr uncounted)] at failures
      rw [Effect.settled,failures]
      rfl
    · rw [if_neg (counted ∘ kind.mp)] at failures
      rw [Effect.settled,failures]

theorem countP_isOf (log : List Exchange) (kind : ExchangeKind) :
    log.countP (·.isOf kind true) + log.countP (·.isOf kind false) = log.countP (·.kind = kind) := by
  induction log with
  | nil => rfl
  | cons exchange log ih =>
    rw [List.countP_cons,List.countP_cons,List.countP_cons,← ih]
    by_cases same : exchange.kind = kind <;> cases accepted : exchange.isAccepted <;>
      simp [Exchange.isOf,same,accepted] <;> omega

theorem length_eq_sum (log : List Exchange) :
    (ExchangeKind.all.map fun kind => log.countP (·.kind = kind)).sum = log.length := by
  induction log with
  | nil => rfl
  | cons exchange log ih =>
    simp only [ExchangeKind.all,List.map_cons,List.map_nil,List.sum_cons,List.sum_nil,List.countP_cons] at ih ⊢
    rw [List.length_cons,← ih]
    cases exchange.kind <;> simp <;> omega

/-- Requests and durations are labelled with the outcomes of the exchanges; failures grow by
one for each operation that fails and whose failure is measured. -/
theorem measures_of_run (measured : client.scope.isSome) (operations : List (Operation A)) :
    let state := client.after operations
    (∀ kind success, state.ledger.total (.request kind success) = state.log.countP (·.isOf kind success) ∧
      state.ledger.total (.duration kind success) = state.log.countP (·.isOf kind success)) ∧
    (∀ kind, state.ledger.total (.request kind true) + state.ledger.total (.request kind false) =
      state.log.countP (·.kind = kind)) ∧
    (ExchangeKind.all.map fun kind => state.ledger.total (.duration kind true) +
      state.ledger.total (.duration kind false)).sum = state.log.length ∧
    state.ledger.total (.calls 0) = client.acceptedCalls .initial operations ∧
    state.ledger.total .sessionRefresh = state.log.countP (·.session?.isSome) ∧
    ∀ operation : Operation A,
      let result := (Action.apply (operation.perform client) state).1
      let failures := (client.next state operation).ledger.failures
      (∀ answer, result = .ok answer → failures = state.ledger.failures) ∧
      ∀ error, result = .error error →
        (operation.Uncounted client state → failures = state.ledger.failures) ∧
        (¬operation.Uncounted client state → failures = state.ledger.failures + 1) := by
  intro state
  have requests (kind success) : state.ledger.total (.request kind success) = state.log.countP (·.isOf kind success) :=
    total_after measured (by intro; simp [Measurement.plain])
      (fun calls exchange => exchange.total_bill_request calls kind success) operations
  have durations (kind success) :
      state.ledger.total (.duration kind success) = state.log.countP (·.isOf kind success) :=
    total_after measured (by intro; simp [Measurement.plain])
      (fun calls exchange => exchange.total_bill_duration calls kind success) operations
  have refreshes : state.ledger.total .sessionRefresh = state.log.countP (·.session?.isSome) :=
    total_after measured (by intro; simp [Measurement.plain])
      (fun calls exchange => exchange.total_bill_refresh calls) operations
  have calls : state.ledger.total (.calls 0) = client.acceptedCalls .initial operations :=
    (calls_of_run measured .initial operations).trans (Nat.zero_add _)
  refine ⟨fun kind success => ⟨requests kind success,durations kind success⟩,?_,?_,calls,refreshes,?_⟩
  · intro kind
    rw [requests,requests,countP_isOf]
  · simp only [durations,countP_isOf,length_eq_sum]
  · exact fun operation => failures_of_operation measured
      (fun unnamed => (after_of_unnamed unnamed operations).2) operation

theorem measures_of_run_unread :
    let body := "\x7b\"capabilities\":\x7b\"urn:ietf:params:jmap:core\":\x7b\"maxCallsInRequest\":2\x7d\x7d\x7d"
    let replies : List (Except Error HttpReply) := [.ok ⟨200,none,body.toUTF8⟩,.ok ⟨201,none,.empty⟩]
    let client : Client Value := ⟨.scripted replies,"https://example.com/jmap","",.empty,some "jmap"⟩
    let call : Invocation Value := ⟨"Core/echo","c0",.object []⟩
    let operations : List (Operation Value) := [.send ⟨[],[call,call],none⟩,.echo]
    let state := client.after operations
    client.scope.isSome ∧ state.ledger.total (.request .api true) = 1 ∧ state.ledger.total (.request .api false) = 1 ∧
      state.ledger.total (.calls 0) = 2 ∧ state.ledger.total .sessionRefresh = 1 ∧
      (client.next state .updateSession).ledger.failures = state.ledger.failures + 1 := by
  intro body replies client call operations state
  -- Two calls are accepted although their reply cannot be read; nothing is answered from then on.
  obtain ⟨requests,_,_,calls,refreshes,failures⟩ := @measures_of_run Value _ client rfl operations
  have accepted : state.log.countP (·.isOf .api true) = 1 := by decide +kernel
  have rejected : state.log.countP (·.isOf .api false) = 1 := by decide +kernel
  have counted : client.acceptedCalls .initial operations = 2 := by decide +kernel
  have refreshed : state.log.countP (·.session?.isSome) = 1 := by decide +kernel
  have failed : (Action.apply client.updateSession state).1.toOption.isNone := by decide +kernel
  refine ⟨rfl,(requests _ _).1.trans accepted,(requests _ _).1.trans rejected,calls.trans counted,
    refreshes.trans refreshed,?_⟩
  obtain ⟨_,erred⟩ := failures .updateSession
  cases outcome : (Action.apply client.updateSession state).1 with
  | ok session =>
    rw [outcome] at failed
    cases failed
  | error error => exact (erred error outcome).2 (Operation.not_uncounted (by decide) rfl)

end Client
end Jmap
