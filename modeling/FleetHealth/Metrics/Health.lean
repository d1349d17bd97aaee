import FleetHealth.Fleet.Status
import FleetHealth.Metrics.Metrics

/-! # Classification

A host's verdict follows from its metrics, those of the reference and a tolerance.
-/
namespace FleetHealth

/-- A ratio above this percentage cannot be. -/
def maxRawPercentage : Nat := 110

structure Tolerance where
  /-- Transactions a window. -/
  tps : Nat
  /-- Transaction blocks in all. -/
  transactions : Nat
  /-- The latest checkpoint. -/
  checkpoints : Nat
deriving DecidableEq, Repr

def Tolerance.default : Tolerance := ⟨20, 50, 30⟩

def isFailing (host : Metrics) : Bool :=
  !host.updated
    || host.totalTransactionBlocks = 0
    || host.latestCheckpoint = 0
    || host.txSyncPercentage = 0
    || maxRawPercentage < host.txSyncRawPercentage
    || maxRawPercentage < host.checkpointSyncRawPercentage
    || (host.transactionRate = 0 && host.windows.transactions.warmedUp)

def isBehind (own reference allowed : Nat) : Bool := own < reference - allowed

def isLagging (host reference : Metrics) (tolerance : Tolerance) : Bool :=
  isBehind host.transactionRate reference.transactionRate tolerance.tps
    || isBehind host.totalTransactionBlocks reference.totalTransactionBlocks tolerance.transactions
    || isBehind host.latestCheckpoint reference.latestCheckpoint tolerance.checkpoints

def classify (host reference : Metrics) (table : Table) (tolerance : Tolerance) : Status :=
  match table with
  | .validator => if !host.updated || host.uptime = "" then .red else .green
  | .node | .rpc =>
    if isFailing host then .red
    else if isLagging host reference tolerance then .yellow
    else .green

end FleetHealth
