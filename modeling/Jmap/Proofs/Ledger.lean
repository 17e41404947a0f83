import Jmap.Client.Ledger
import Jmap.Proofs.SortedMap
import Mathlib

/-! What is counted under a series: the amounts of its measurements, whatever is measured
between them. -/
namespace Jmap

def ExchangeKind.all : List ExchangeKind := [.session,.api,.upload,.download]

def FailureKind.all : List FailureKind := [.transport,.request,.http,.serialization,.limit]

namespace Measurement

/-- One measurement of each series. -/
def all : List Measurement :=
  (ExchangeKind.all.flatMap fun kind =>
    [.request kind true,.request kind false,.duration kind true,.duration kind false]) ++
  .calls 0 :: .sessionRefresh :: FailureKind.all.map .failure

/-- The same whatever the amount. -/
def plain : Measurement → Measurement
  | .calls _ => .calls 0
  | measurement => measurement

theorem plain_mem_all (measurement : Measurement) : measurement.plain ∈ all := by
  cases measurement with
  | request kind success => cases kind <;> cases success <;> decide
  | duration kind success => cases kind <;> cases success <;> decide
  | calls count => simp [plain,all]
  | failure kind => cases kind <;> decide
  | sessionRefresh => decide

theorem series_plain (measurement : Measurement) : measurement.plain.series = measurement.series := by
  cases measurement <;> rfl

theorem all_series_nodup : (all.map series).Nodup := by decide +kernel

/-- No two counters, and no two labels of one, fall together. -/
theorem series_eq_iff {first second : Measurement} : first.series = second.series ↔ first.plain = second.plain := by
  constructor
  · intro same
    rw [← series_plain first,← series_plain second] at same
    exact List.inj_on_of_nodup_map all_series_nodup (plain_mem_all first) (plain_mem_all second) same
  · intro same
    rw [← series_plain first,← series_plain second,same]

end Measurement

namespace Ledger

def total (ledger : Ledger) (measurement : Measurement) : Nat := (ledger.totals.find? measurement.series).getD 0

def failures (ledger : Ledger) : Nat := (FailureKind.all.map fun kind => ledger.total (.failure kind)).sum

theorem total_eq_sum (ledger : Ledger) (measurement : Measurement) :
    ledger.total measurement =
      (ledger.map fun entry => if entry.plain = measurement.plain then entry.amount else 0).sum := by
  -- The sum is what comes on top of the totals with which the fold begins.
  have counted (totals : SortedMap Nat) :
      ((ledger.foldl (fun totals entry =>
        totals.insert entry.series ((totals.find? entry.series).getD 0 + entry.amount)) totals).find?
          measurement.series).getD 0 =
        (totals.find? measurement.series).getD 0 +
          (ledger.map fun entry => if entry.plain = measurement.plain then entry.amount else 0).sum := by
    induction ledger generalizing totals with
    | nil => rfl
    | cons entry ledger ih =>
      rw [List.foldl_cons,ih,SortedMap.find?_insert,List.map_cons,List.sum_cons]
      by_cases same : entry.plain = measurement.plain
      · rw [if_pos same,if_pos (Measurement.series_eq_iff.mpr same.symm),Measurement.series_eq_iff.mpr same]
        simp [Nat.add_assoc]
      · rw [if_neg same,if_neg fun other => same (Measurement.series_eq_iff.mp other).symm,Nat.zero_add]
  rw [total,totals,counted .empty,SortedMap.find?_empty,Option.getD_none,Nat.zero_add]

theorem total_append (first second : Ledger) (measurement : Measurement) :
    Ledger.total (first ++ second) measurement = first.total measurement + second.total measurement := by
  simp [total_eq_sum]

theorem failures_append (first second : Ledger) : failures (first ++ second) = first.failures + second.failures := by
  simp [failures,FailureKind.all,total_append]
  omega

end Ledger
end Jmap
