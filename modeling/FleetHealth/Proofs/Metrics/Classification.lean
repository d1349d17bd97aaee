import FleetHealth.Metrics.Health
import FleetHealth.Metrics.Progress
import FleetHealth.Proofs.Metrics.Ingested

/-! # Verdicts from counters

The verdict on a host is a comparison of natural numbers: the percentages that it goes
through, rounded and capped as they are, decide nothing that the counters themselves do
not decide.
-/
namespace FleetHealth

open Number

def percentages (own reference : Nat) : Nat × Nat :=
  let raw := capCounter ((2 * (own * 100) + reference) / (2 * reference))
  (min raw 100, raw)

/-- Half a percent is rounded up. -/
theorem percentages_eq_zero_iff {own reference : Nat} (h : 0 < reference) :
    (percentages own reference).1 = 0 ↔ 200 * own < reference := by
  have hzero : (percentages own reference).1 = 0 ↔
      (2 * (own * 100) + reference) / (2 * reference) = 0 := by
    simp only [percentages, capCounter, counterMax]
    omega
  rw [hzero, Nat.div_eq_zero_iff_lt (by omega)]
  omega

/-- So is half a percent above the greatest possible percentage. -/
theorem lt_percentages_iff {own reference : Nat} (h : 0 < reference) :
    maxRawPercentage < (percentages own reference).2 ↔ 221 * reference ≤ 200 * own := by
  have hcap : maxRawPercentage < (percentages own reference).2 ↔
      111 ≤ (2 * (own * 100) + reference) / (2 * reference) := by
    simp only [percentages, capCounter, counterMax, maxRawPercentage]
    omega
  rw [hcap, Nat.le_div_iff_mul_le (by omega)]
  omega

/-- The dividend of a percentage of counters is an amount. -/
theorem dividend_le_amountMax {own reference : Nat} (hown : own ≤ counterMax)
    (hreference : reference ≤ counterMax) : 2 * (own * 100) + reference ≤ amountMax := by
  simp only [counterMax, amountMax] at *
  omega

/-- The verdict that the counters of a host call for next to those of the reference. -/
def dueStatus (host reference : Metrics) (tolerance : Tolerance) : Status :=
  if host.totalTransactionBlocks = 0 ∨ host.latestCheckpoint = 0
      ∨ 200 * host.totalTransactionBlocks < reference.totalTransactionBlocks
      ∨ 221 * reference.totalTransactionBlocks ≤ 200 * host.totalTransactionBlocks
      ∨ 221 * reference.latestCheckpoint ≤ 200 * host.latestCheckpoint
      ∨ (host.transactionRate = 0 ∧ host.windows.transactions.warmedUp = true) then .red
  else if host.transactionRate + tolerance.tps < reference.transactionRate
      ∨ host.totalTransactionBlocks + tolerance.transactions < reference.totalTransactionBlocks
      ∨ host.latestCheckpoint + tolerance.checkpoints < reference.latestCheckpoint then .yellow
  else .green

theorem isBehind_iff {own reference allowed : Nat} :
    isBehind own reference allowed = true ↔ own + allowed < reference := by
  simp only [isBehind, decide_eq_true_eq]
  omega

theorem isLagging_iff {host reference : Metrics} {tolerance : Tolerance} :
    isLagging host reference tolerance = true ↔
      host.transactionRate + tolerance.tps < reference.transactionRate
        ∨ host.totalTransactionBlocks + tolerance.transactions < reference.totalTransactionBlocks
        ∨ host.latestCheckpoint + tolerance.checkpoints < reference.latestCheckpoint := by
  simp only [isLagging, Bool.or_eq_true, isBehind_iff, or_assoc]

namespace Metrics

/-- Has the reference counted both transactions and checkpoints? -/
structure Counted (reference : Metrics) : Prop where
  transactions : 0 < reference.totalTransactionBlocks
  checkpoint : 0 < reference.latestCheckpoint

variable {m reference : Metrics}

theorem updateProgress_eq (h : reference.Counted) (m : Metrics) :
    m.updateProgress reference =
      ((m.setTxSync (percentages m.totalTransactionBlocks reference.totalTransactionBlocks)
        ).setCheckpointSync (percentages m.latestCheckpoint reference.latestCheckpoint), none) := by
  have hratio : ∀ own other kind, 0 < other → progressPercentage own other kind =
      .ok (percentages own other).1 ∧ rawPercentage own other kind = .ok (percentages own other).2 := by
    intro own other kind hother
    have hne : other ≠ 0 := by omega
    simp [progressPercentage, rawPercentage, hne, percentages, Except.map]
  have htx := hratio m.totalTransactionBlocks _ .totalTransactionBlocks h.transactions
  have hcheckpoint := hratio m.latestCheckpoint _ .latestCheckpoint h.checkpoint
  simp only [updateProgress, syncRatio, integer, bind, Except.bind, htx.1, htx.2, hcheckpoint.1,
    hcheckpoint.2, applyRatio, failure?, Option.or_none]

/-- Failing is a matter of the counters alone: what has not been counted up is failing. -/
theorem isFailing_updateProgress_iff (hsound : m.Sound) (h : reference.Counted) :
    isFailing (m.updateProgress reference).1 = true ↔
      m.totalTransactionBlocks = 0 ∨ m.latestCheckpoint = 0
        ∨ 200 * m.totalTransactionBlocks < reference.totalTransactionBlocks
        ∨ 221 * reference.totalTransactionBlocks ≤ 200 * m.totalTransactionBlocks
        ∨ 221 * reference.latestCheckpoint ≤ 200 * m.latestCheckpoint
        ∨ (m.transactionRate = 0 ∧ m.windows.transactions.warmedUp = true) := by
  rw [updateProgress_eq h]
  simp only [isFailing, Bool.or_eq_true, Bool.not_eq_true', decide_eq_true_eq, Bool.and_eq_true]
  change (((((((m.updated = false ∨ m.totalTransactionBlocks = 0) ∨ m.latestCheckpoint = 0)
    ∨ (percentages m.totalTransactionBlocks reference.totalTransactionBlocks).1 = 0)
    ∨ maxRawPercentage < (percentages m.totalTransactionBlocks reference.totalTransactionBlocks).2)
    ∨ maxRawPercentage < (percentages m.latestCheckpoint reference.latestCheckpoint).2)
    ∨ (m.transactionRate = 0 ∧ m.windows.transactions.warmedUp = true))) ↔ _
  rw [percentages_eq_zero_iff h.transactions, lt_percentages_iff h.transactions,
    lt_percentages_iff h.checkpoint]
  have hidle := hsound.idle
  constructor
  · rintro ((((((hupdated | h) | h) | h) | h) | h) | h)
    · exact .inl (hidle hupdated)
    all_goals simp [h]
  · rintro (h | h | h | h | h | h) <;> simp [h]

end Metrics

open Metrics in
/-- The verdict on a host whose progress was refreshed is the one its counters call for. -/
theorem classify_updateProgress {m reference : Metrics} (hsound : m.Sound) (h : reference.Counted)
    {table : Table} (htable : table ≠ .validator) (tolerance : Tolerance) :
    classify (m.updateProgress reference).1 reference table tolerance =
      dueStatus m reference tolerance := by
  have hfailing := isFailing_updateProgress_iff hsound h
  have hlagging : isLagging (m.updateProgress reference).1 reference tolerance =
      isLagging m reference tolerance := by
    rw [updateProgress_eq h]
    rfl
  have hverdict : classify (m.updateProgress reference).1 reference table tolerance =
      if isFailing (m.updateProgress reference).1 then .red
      else if isLagging m reference tolerance then .yellow else .green := by
    rw [← hlagging]
    cases table with
    | validator => contradiction
    | rpc | node => rfl
  rw [hverdict, dueStatus]
  simp only [hfailing, isLagging_iff]

theorem classify_ne_grey (host reference : Metrics) (table : Table) (tolerance : Tolerance) :
    classify host reference table tolerance ≠ .grey := by
  unfold classify
  cases table with
  | validator =>
    dsimp only
    split <;> rintro ⟨⟩
  | rpc | node =>
    dsimp only
    split
    · rintro ⟨⟩
    · split <;> rintro ⟨⟩

end FleetHealth
