import FleetHealth.Chain.SystemState
import FleetHealth.Metrics.Kind
import FleetHealth.Number.Write

/-! # Metrics of a host

What a cycle has learned about one host: counters, texts, the snapshot of the chain,
figures derived from them, and the rate windows that go from cycle to cycle.
-/
namespace FleetHealth

open Number Clock Chain

inductive WireValue where
  | text (s : String)
  | number (x : Binary64)
  | object (value : Json)
deriving Repr

def WireValue.typeName : WireValue → String
  | .text _ => "text"
  | .number _ => "number"
  | .object _ => "object"

/-- A text is a text, every number is a double, and all else is an object. -/
def WireValue.ofJson : Json → WireValue
  | .text s => .text s
  | .number (.natural n) => .number (.ofNat n)
  | .number (.negative n) => .number (.ofInt n)
  | .number (.double x) => .number x
  | value => .object value.canonical

inductive MetricsError where
  | unexpectedType (metric : MetricKind) (expected : WireFormat) (found : String)
  | unreadable (metric : MetricKind) (raw : String)
  | undecodable (metric : MetricKind) (mismatch : Json.Mismatch)
  | zeroReference (metric : MetricKind)
  | notInteger (metric : MetricKind)
  | missingSystemState
  | systemState (e : StateError)
deriving DecidableEq, Repr

def MetricsError.message : MetricsError → String
  | .unexpectedType metric expected found =>
    metric.name ++ ": expected " ++ expected.name ++ ", got " ++ found
  | .unreadable metric raw => metric.name ++ ": cannot parse '" ++ raw ++ "'"
  | .undecodable metric mismatch => metric.name ++ ": failed to decode: " ++ mismatch.message
  | .zeroReference metric => metric.name ++ ": reference value is zero"
  | .notInteger metric => metric.name ++ " is not an integer metric"
  | .missingSystemState => "validator APYs received before the system state"
  | .systemState e => e.message

def defaultWindow : RateWindow.Capacity := 5

structure Metrics where
  /-- Has any value been taken in during this cycle? -/
  updated : Bool
  updatedAt : Option Instant
  totalTransactionBlocks : Nat
  totalTransactionCertificates : Nat
  totalTransactionEffects : Nat
  latestCheckpoint : Nat
  highestKnownCheckpoint : Nat
  highestSyncedCheckpoint : Nat
  lastExecutedCheckpoint : Nat
  checkpointSyncBacklog : Nat
  checkpointExecBacklog : Nat
  currentRound : Nat
  highestProcessedRound : Nat
  lastCommittedRound : Nat
  certificatesCreated : Nat
  consensusCommitLatencySum : Binary64
  networkPeers : Nat
  knownPeers : Nat
  uptime : String
  version : String
  commit : String
  txSyncPercentage : Nat
  txSyncRawPercentage : Nat
  checkpointSyncPercentage : Nat
  checkpointSyncRawPercentage : Nat
  windows : RateWindows
  systemState : Option SystemState
  epoch : Option EpochInfo
deriving Repr

namespace Metrics

def ofWindows (windows : RateWindows) : Metrics where
  updated := false
  updatedAt := none
  totalTransactionBlocks := 0
  totalTransactionCertificates := 0
  totalTransactionEffects := 0
  latestCheckpoint := 0
  highestKnownCheckpoint := 0
  highestSyncedCheckpoint := 0
  lastExecutedCheckpoint := 0
  checkpointSyncBacklog := 0
  checkpointExecBacklog := 0
  currentRound := 0
  highestProcessedRound := 0
  lastCommittedRound := 0
  certificatesCreated := 0
  consensusCommitLatencySum := .zero
  networkPeers := 0
  knownPeers := 0
  uptime := ""
  version := ""
  commit := ""
  txSyncPercentage := 0
  txSyncRawPercentage := 0
  checkpointSyncPercentage := 0
  checkpointSyncRawPercentage := 0
  windows := windows
  systemState := none
  epoch := none

def new (window : RateWindow.Capacity) : Metrics := ofWindows (.new window)

/-- Fresh metrics for the next cycle; only the windows stay. -/
def carryForward (m : Metrics) : Metrics := ofWindows m.windows

def integer (m : Metrics) (kind : MetricKind) : Except MetricsError Nat :=
  match kind with
  | .totalTransactionBlocks => .ok m.totalTransactionBlocks
  | .latestCheckpoint => .ok m.latestCheckpoint
  | .highestKnownCheckpoint => .ok m.highestKnownCheckpoint
  | .highestSyncedCheckpoint => .ok m.highestSyncedCheckpoint
  | .lastExecutedCheckpoint => .ok m.lastExecutedCheckpoint
  | .totalTransactionCertificates => .ok m.totalTransactionCertificates
  | .totalTransactionEffects => .ok m.totalTransactionEffects
  | .currentRound => .ok m.currentRound
  | .highestProcessedRound => .ok m.highestProcessedRound
  | .lastCommittedRound => .ok m.lastCommittedRound
  | .networkPeers => .ok m.networkPeers
  | .knownPeers => .ok m.knownPeers
  | .certificatesCreated => .ok m.certificatesCreated
  | .systemState | .validatorsApy | .uptime | .version | .commit | .consensusCommitLatency =>
    .error (.notInteger kind)

def setInteger (m : Metrics) (kind : MetricKind) (value : Nat) : Metrics :=
  match kind with
  | .totalTransactionBlocks => { m with totalTransactionBlocks := value }
  | .latestCheckpoint => { m with latestCheckpoint := value }
  | .highestKnownCheckpoint => { m with highestKnownCheckpoint := value }
  | .highestSyncedCheckpoint => { m with highestSyncedCheckpoint := value }
  | .lastExecutedCheckpoint => { m with lastExecutedCheckpoint := value }
  | .totalTransactionCertificates => { m with totalTransactionCertificates := value }
  | .totalTransactionEffects => { m with totalTransactionEffects := value }
  | .currentRound => { m with currentRound := value }
  | .highestProcessedRound => { m with highestProcessedRound := value }
  | .lastCommittedRound => { m with lastCommittedRound := value }
  | .networkPeers => { m with networkPeers := value }
  | .knownPeers => { m with knownPeers := value }
  | .certificatesCreated => { m with certificatesCreated := value }
  | .systemState | .validatorsApy | .uptime | .version | .commit | .consensusCommitLatency => m

def pushRate (m : Metrics) (kind : MetricKind) (value : Nat) : Metrics :=
  match kind.rateSeries? with
  | some series => { m with windows := m.windows.push series value }
  | none => m

/-- How far syncing is behind what is known, and executing behind syncing. -/
def refreshBacklogs (m : Metrics) : Metrics :=
  { m with
    checkpointSyncBacklog := m.highestKnownCheckpoint - m.highestSyncedCheckpoint
    checkpointExecBacklog := m.highestSyncedCheckpoint - m.lastExecutedCheckpoint }

def storeInteger (m : Metrics) (kind : MetricKind) (value : Nat) : Metrics :=
  ((m.setInteger kind value).pushRate kind value).refreshBacklogs

def rate (m : Metrics) (series : RateSeries) : Nat := (m.windows.get series).rate

def transactionRate (m : Metrics) : Nat := m.rate .transactions

def checkpointRate (m : Metrics) : Nat := m.rate .checkpoints

end Metrics

end FleetHealth
