import Jmap.Proofs.Client.Cache
import Jmap.Proofs.Ledger

/-! What an operation measures, in the order in which it does: the bill of each of its
exchanges, and then its failure if it has failed. -/
namespace Jmap
open Json Outcome

namespace Exchange

def isOf (kind : ExchangeKind) (success : Bool) (exchange : Exchange) : Bool :=
  exchange.kind = kind ∧ exchange.isAccepted = success

/-- All that an exchange of an operation with so many calls leaves behind. -/
def bill (calls : Nat) (exchange : Exchange) : Ledger :=
  exchange.measurements ++ (if exchange.isOf .api true then [.calls calls] else []) ++
    if exchange.session?.isSome then [.sessionRefresh] else []

theorem bill_of_api {exchange : Exchange} (kind : exchange.kind = .api) (calls : Nat) :
    exchange.bill calls = exchange.measurements ++ if exchange.isAccepted then [.calls calls] else [] := by
  have other : exchange.kind ≠ .session := by simp [kind]
  simp [bill,isOf,kind,session?_of_kind other]

theorem bill_of_session {exchange : Exchange} (kind : exchange.kind = .session) (calls : Nat) :
    exchange.bill calls =
      exchange.measurements ++ if exchange.session?.isSome then [.sessionRefresh] else [] := by
  simp [bill,isOf,kind]

theorem bill_of_other {exchange : Exchange} (api : exchange.kind ≠ .api) (session : exchange.kind ≠ .session)
    (calls : Nat) : exchange.bill calls = exchange.measurements := by
  simp [bill,isOf,api,session?_of_kind session]

section
variable (calls : Nat) (exchange : Exchange)

theorem total_bill_request (kind : ExchangeKind) (success : Bool) :
    Ledger.total (exchange.bill calls) (.request kind success) = if exchange.isOf kind success then 1 else 0 := by
  rw [Ledger.total_eq_sum]
  unfold bill
  split_ifs <;> simp_all [measurements,Measurement.plain,Measurement.amount,isOf]

theorem total_bill_duration (kind : ExchangeKind) (success : Bool) :
    Ledger.total (exchange.bill calls) (.duration kind success) = if exchange.isOf kind success then 1 else 0 := by
  rw [Ledger.total_eq_sum]
  unfold bill
  split_ifs <;> simp_all [measurements,Measurement.plain,Measurement.amount,isOf]

theorem total_bill_calls :
    Ledger.total (exchange.bill calls) (.calls 0) = if exchange.isOf .api true then calls else 0 := by
  rw [Ledger.total_eq_sum]
  unfold bill
  split_ifs <;> simp [measurements,Measurement.plain,Measurement.amount]

theorem total_bill_refresh :
    Ledger.total (exchange.bill calls) .sessionRefresh = if exchange.session?.isSome then 1 else 0 := by
  rw [Ledger.total_eq_sum]
  unfold bill
  split_ifs <;> simp [measurements,Measurement.plain,Measurement.amount]

theorem failures_bill : Ledger.failures (exchange.bill calls) = 0 := by
  unfold bill
  split_ifs <;> simp [Ledger.failures,FailureKind.all,Ledger.total_eq_sum,measurements,Measurement.plain]

end

section
variable {calls : Nat} (exchanges : List Exchange)

theorem total_bills {measurement : Measurement} {amount : Nat} {counted : Exchange → Bool}
    (single : ∀ exchange, Ledger.total (exchange.bill calls) measurement = if counted exchange then amount else 0) :
    Ledger.total (exchanges.flatMap (bill calls)) measurement = amount * exchanges.countP counted := by
  induction exchanges with
  | nil => rw [Ledger.total_eq_sum]; simp
  | cons exchange exchanges ih =>
    rw [List.flatMap_cons,Ledger.total_append,ih,single,List.countP_cons,Nat.mul_add]
    split_ifs <;> simp [Nat.add_comm]

theorem failures_bills : Ledger.failures (exchanges.flatMap (bill calls)) = 0 := by
  induction exchanges with
  | nil => rfl
  | cons exchange exchanges ih => rw [List.flatMap_cons,Ledger.failures_append,failures_bill,ih]

end
end Exchange

namespace Effect
variable {B C : Type} {calls : Nat}

def IsBooked (calls : Nat) (effect : Effect B) : Prop :=
  effect.measured = effect.exchanges.flatMap (Exchange.bill calls) ++ (settled effect.outcome).measured

theorem isBooked_settled (outcome : Except Fault B) : (settled outcome).IsBooked calls := by
  cases outcome <;> rfl

theorem IsBooked.andThen {effect : Effect B} {next : B → Effect C} (first : effect.IsBooked calls)
    (rest : ∀ value, (next value).IsBooked calls) : (effect.andThen next).IsBooked calls := by
  unfold IsBooked at first
  cases outcome : effect.outcome with
  | error fault =>
    rw [andThen_of_error outcome,IsBooked,first,outcome]
    rfl
  | ok value =>
    have following := rest value
    rw [IsBooked] at following
    have silent : (settled effect.outcome).measured = [] := by rw [outcome]; rfl
    rw [andThen_of_ok outcome,IsBooked,first,silent,following]
    simp

theorem isBooked_exchanged {exchange : Exchange} (bill : exchange.bill calls = exchange.measurements) :
    (exchanged exchange).IsBooked calls := by
  rw [exchanged_eq,IsBooked]
  simp [bill]

theorem isBooked_posted {exchange : Exchange} (kind : exchange.kind = .api) : (posted exchange calls).IsBooked calls := by
  have bill := Exchange.bill_of_api kind calls
  have accepted := @Exchange.isAccepted_iff exchange
  rw [posted,exchanged_eq]
  cases replied : exchange.reply with
  | error fault =>
    simp only [replied,reduceCtorEq,exists_false,iff_false] at accepted
    simp [IsBooked,andThen,bill,accepted]
  | ok reply =>
    replace accepted := accepted.mpr ⟨reply,replied⟩
    simp [IsBooked,andThen,bill,accepted,settled,noted]

theorem isBooked_fetching {A : Type} (client : Client A) (state : ClientState) :
    (client.fetching state).IsBooked calls := by
  by_cases unnamed : client.sessionEndpoint = ""
  · rw [Client.fetching,if_pos unnamed]
    exact isBooked_settled _
  · have kind : (client.sessionExchange state).kind = .session := rfl
    have bill := Exchange.bill_of_session kind calls
    rcases client.fetching_of_named unnamed state with ⟨fault,_,nothing,_,effect⟩ | ⟨session,found,effect⟩
    · simp [effect,IsBooked,bill,nothing,settled]
    · simp [effect,IsBooked,bill,found,settled]

theorem isBooked_effect {A : Type} [Writable A] (client : Client A) (state : ClientState)
    (operation : Operation A) : (operation.effect client state).IsBooked operation.calls := by
  have fetching : (client.fetching state).IsBooked operation.calls := isBooked_fetching client state
  have parts : Composable client state operation.calls (IsBooked operation.calls) :=
    { settled := isBooked_settled
      andThen := IsBooked.andThen
      obtaining := of_obtaining (fun _ => rfl) fetching
      posted := fun _ => isBooked_posted
      exchanged := by
        intro exchange kind
        have api : exchange.kind ≠ .api := by rcases kind with kind | kind <;> simp [kind]
        have session : exchange.kind ≠ .session := by rcases kind with kind | kind <;> simp [kind]
        exact isBooked_exchanged (Exchange.bill_of_other api session _) }
  exact parts.effect operation fun _ => fetching

end Effect
end Jmap
