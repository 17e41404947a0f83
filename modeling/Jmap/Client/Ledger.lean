import Jmap.Client.Exchange

/-! What a client measures: exchanges with their durations, calls sent, errors,
sessions fetched. -/
namespace Jmap

inductive FailureKind where
  | transport | request | http | serialization | limit
  deriving DecidableEq

def FailureKind.label : FailureKind → String
  | .transport => "transport"
  | .request => "request"
  | .http => "http"
  | .serialization => "serialization"
  | .limit => "limit"

inductive Measurement where
  | request (kind : ExchangeKind) (success : Bool)
  | duration (kind : ExchangeKind) (success : Bool)
  | calls (count : Nat)
  | failure (kind : FailureKind)
  | sessionRefresh
  deriving DecidableEq

namespace Measurement

def outcome (kind : ExchangeKind) (success : Bool) : String :=
  "\x7bkind=" ++ kind.label ++ ",status=" ++ (if success then "success" else "error") ++ "\x7d"

def series : Measurement → String
  | .request kind success => "jmap.client.requests.total " ++ outcome kind success
  | .duration kind success => "jmap.client.request.duration " ++ outcome kind success
  | .calls _ => "jmap.client.calls.total \x7b\x7d"
  | .failure kind => "jmap.client.errors.total \x7berror_type=" ++ kind.label ++ "\x7d"
  | .sessionRefresh => "jmap.client.session.refresh \x7b\x7d"

def amount : Measurement → Nat
  | .calls count => count
  | _ => 1

end Measurement

/-- Oldest first. -/
abbrev Ledger := List Measurement

namespace Ledger

/-- A series is there once something is measured, be it zero. -/
def totals (ledger : Ledger) : SortedMap Nat :=
  ledger.foldl (fun totals measurement =>
    totals.insert measurement.series ((totals.find? measurement.series).getD 0 + measurement.amount)) .empty

def lines (ledger : Ledger) (scope : String) : List String :=
  ledger.totals.entries.map fun total => scope ++ " " ++ total.1 ++ " " ++ toString total.2

end Ledger
end Jmap
