import FleetHealth.Metrics.Metrics

/-! # Progress against the reference -/
namespace FleetHealth

open Number

/-- A hundred times the quotient, rounded to the nearest whole, halves upwards. -/
def rawPercentage (own reference : Nat) (kind : MetricKind) : Except MetricsError Nat :=
  if reference = 0 then .error (.zeroReference kind)
  else .ok (capCounter ((2 * (own * 100) + reference) / (2 * reference)))

def progressPercentage (own reference : Nat) (kind : MetricKind) : Except MetricsError Nat :=
  (rawPercentage own reference kind).map (min · 100)

namespace Metrics

/-- The percentage of a counter, at most 100 and uncut. -/
def syncRatio (m reference : Metrics) (kind : MetricKind) : Except MetricsError (Nat × Nat) := do
  let own ← m.integer kind
  let other ← reference.integer kind
  let progress ← progressPercentage own other kind
  let raw ← rawPercentage own other kind
  .ok (progress, raw)

def setTxSync (m : Metrics) (ratio : Nat × Nat) : Metrics :=
  { m with txSyncPercentage := ratio.1, txSyncRawPercentage := ratio.2 }

def setCheckpointSync (m : Metrics) (ratio : Nat × Nat) : Metrics :=
  { m with checkpointSyncPercentage := ratio.1, checkpointSyncRawPercentage := ratio.2 }

def applyRatio (update : Metrics → Nat × Nat → Metrics) (m : Metrics)
    (ratio : Except MetricsError (Nat × Nat)) : Metrics :=
  match ratio with
  | .ok r => update m r
  | .error _ => m

def failure? (ratio : Except MetricsError (Nat × Nat)) : Option MetricsError :=
  match ratio with
  | .ok _ => none
  | .error e => some e

/-- Refreshes the percentages of transactions and checkpoints. Both are attempted; the
first failure is returned with the metrics. -/
def updateProgress (m reference : Metrics) : Metrics × Option MetricsError :=
  let tx := m.syncRatio reference .totalTransactionBlocks
  let checkpoint := m.syncRatio reference .latestCheckpoint
  (applyRatio setCheckpointSync (applyRatio setTxSync m tx) checkpoint,
    (failure? tx).or (failure? checkpoint))

end Metrics

end FleetHealth
