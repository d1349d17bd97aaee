import FleetHealth.Exposition.Select
import FleetHealth.Fleet.Table
import FleetHealth.Metrics.Window

/-! # Metric kinds

Each kind says under which name its series is known, in which form its values arrive,
which rate window it feeds, and which call or series serves it.
-/
namespace FleetHealth

open Exposition

inductive RpcMethod where
  | totalTransactionBlocks
  | latestCheckpoint
  | systemState
  | validatorsApy
deriving DecidableEq, Repr

def RpcMethod.name : RpcMethod → String
  | .totalTransactionBlocks => "sui_getTotalTransactionBlocks"
  | .latestCheckpoint => "sui_getLatestCheckpointSequenceNumber"
  | .systemState => "suix_getLatestSuiSystemState"
  | .validatorsApy => "suix_getValidatorsApy"

inductive WireFormat where
  /-- A decimal integer in a text. -/
  | integerText
  /-- The value of a sample. -/
  | float
  /-- Free text. -/
  | text
  /-- A structured value. -/
  | object
deriving DecidableEq, Repr

def WireFormat.name : WireFormat → String
  | .integerText => "integer string"
  | .float => "float"
  | .text => "text"
  | .object => "object"

inductive MetricKind where
  | totalTransactionBlocks
  | latestCheckpoint
  | systemState
  | validatorsApy
  | uptime
  | version
  | commit
  | highestKnownCheckpoint
  | highestSyncedCheckpoint
  | lastExecutedCheckpoint
  | totalTransactionCertificates
  | totalTransactionEffects
  | currentRound
  | highestProcessedRound
  | lastCommittedRound
  | networkPeers
  | knownPeers
  | certificatesCreated
  | consensusCommitLatency
deriving DecidableEq, Repr

namespace MetricKind

def name : MetricKind → String
  | .totalTransactionBlocks => "total_transaction_blocks"
  | .latestCheckpoint => "latest_checkpoint"
  | .systemState => "system_state"
  | .validatorsApy => "validators_apy"
  | .uptime => "uptime"
  | .version => "version"
  | .commit => "commit"
  | .highestKnownCheckpoint => "highest_known_checkpoint"
  | .highestSyncedCheckpoint => "highest_synced_checkpoint"
  | .lastExecutedCheckpoint => "last_executed_checkpoint"
  | .totalTransactionCertificates => "total_transaction_certificates"
  | .totalTransactionEffects => "total_transaction_effects"
  | .currentRound => "current_round"
  | .highestProcessedRound => "highest_processed_round"
  | .lastCommittedRound => "last_committed_round"
  | .networkPeers => "sui_network_peers"
  | .knownPeers => "sui_network_known_peers"
  | .certificatesCreated => "certificates_created"
  | .consensusCommitLatency => "consensus_commit_latency"

instance : ToString MetricKind := ⟨name⟩

def all : List MetricKind :=
  [.totalTransactionBlocks, .latestCheckpoint, .systemState, .validatorsApy, .uptime, .version,
   .commit, .highestKnownCheckpoint, .highestSyncedCheckpoint, .lastExecutedCheckpoint,
   .totalTransactionCertificates, .totalTransactionEffects, .currentRound, .highestProcessedRound,
   .lastCommittedRound, .networkPeers, .knownPeers, .certificatesCreated, .consensusCommitLatency]

def ofName? (name : String) : Option MetricKind := all.find? (·.name = name)

def wireFormat : MetricKind → WireFormat
  | .totalTransactionBlocks | .latestCheckpoint => .integerText
  | .systemState | .validatorsApy => .object
  | .version | .commit => .text
  | .uptime | .highestKnownCheckpoint | .highestSyncedCheckpoint | .lastExecutedCheckpoint
  | .totalTransactionCertificates | .totalTransactionEffects | .currentRound
  | .highestProcessedRound | .lastCommittedRound | .networkPeers | .knownPeers
  | .certificatesCreated | .consensusCommitLatency => .float

def rateSeries? : MetricKind → Option RateSeries
  | .totalTransactionBlocks => some .transactions
  | .latestCheckpoint => some .checkpoints
  | .highestSyncedCheckpoint => some .syncedCheckpoints
  | .currentRound => some .rounds
  | .totalTransactionCertificates | .certificatesCreated => some .certificates
  | _ => none

def rpcMethod? : MetricKind → Option RpcMethod
  | .totalTransactionBlocks => some .totalTransactionBlocks
  | .latestCheckpoint => some .latestCheckpoint
  | .systemState => some .systemState
  | .validatorsApy => some .validatorsApy
  | _ => none

def seriesSpec? (kind : MetricKind) : Option SeriesSpec :=
  match kind with
  | .uptime | .totalTransactionCertificates | .totalTransactionEffects | .certificatesCreated =>
    some ⟨kind.name, .counter, []⟩
  | .highestProcessedRound => some ⟨kind.name, .gauge, [("source", "own")]⟩
  | .highestKnownCheckpoint | .highestSyncedCheckpoint | .lastExecutedCheckpoint | .currentRound
  | .lastCommittedRound | .networkPeers | .knownPeers => some ⟨kind.name, .gauge, []⟩
  | .consensusCommitLatency => some ⟨kind.name, .summary, []⟩
  | .totalTransactionBlocks | .latestCheckpoint | .systemState | .validatorsApy | .version
  | .commit => none

end MetricKind

/-- The kinds called for in a table, in the order of the calls. The system state comes
before the yields that are merged into it. -/
def Table.rpcCalls : Table → List MetricKind
  | .rpc => [.totalTransactionBlocks, .latestCheckpoint, .systemState, .validatorsApy]
  | .node => [.totalTransactionBlocks, .latestCheckpoint]
  | .validator => []

def Table.scraped : Table → List MetricKind
  | .rpc => []
  | .node =>
    [.uptime, .highestKnownCheckpoint, .highestSyncedCheckpoint, .lastExecutedCheckpoint,
     .totalTransactionCertificates, .totalTransactionEffects, .networkPeers, .knownPeers]
  | .validator =>
    [.uptime, .highestSyncedCheckpoint, .lastExecutedCheckpoint, .currentRound,
     .highestProcessedRound, .lastCommittedRound, .certificatesCreated, .networkPeers,
     .consensusCommitLatency]

end FleetHealth
