import FleetHealth.Metrics.Metrics

/-! # Metrics as JSON -/
namespace FleetHealth

def RateWindow.toJson (w : RateWindow) : Json :=
  .object [("samples", .list (w.samples.map .nat)), ("capacity", .nat w.capacity),
    ("rate", .nat w.rate), ("warmed_up", .bool w.warmedUp)]

def RateWindows.toJson (ws : RateWindows) : Json :=
  .object [("transactions", ws.transactions.toJson), ("checkpoints", ws.checkpoints.toJson),
    ("synced_checkpoints", ws.syncedCheckpoints.toJson), ("rounds", ws.rounds.toJson),
    ("certificates", ws.certificates.toJson)]

def Metrics.toJson (m : Metrics) : Json :=
  .object [("updated", .bool m.updated),
    ("updated_at", .option (fun t => .text t.reportText) m.updatedAt),
    ("total_transaction_blocks", .nat m.totalTransactionBlocks),
    ("total_transaction_certificates", .nat m.totalTransactionCertificates),
    ("total_transaction_effects", .nat m.totalTransactionEffects),
    ("latest_checkpoint", .nat m.latestCheckpoint),
    ("highest_known_checkpoint", .nat m.highestKnownCheckpoint),
    ("highest_synced_checkpoint", .nat m.highestSyncedCheckpoint),
    ("last_executed_checkpoint", .nat m.lastExecutedCheckpoint),
    ("checkpoint_sync_backlog", .nat m.checkpointSyncBacklog),
    ("checkpoint_exec_backlog", .nat m.checkpointExecBacklog),
    ("current_round", .nat m.currentRound),
    ("highest_processed_round", .nat m.highestProcessedRound),
    ("last_committed_round", .nat m.lastCommittedRound),
    ("certificates_created", .nat m.certificatesCreated),
    ("consensus_commit_latency_sum", .double m.consensusCommitLatencySum),
    ("network_peers", .nat m.networkPeers),
    ("known_peers", .nat m.knownPeers),
    ("uptime", .text m.uptime),
    ("version", .text m.version),
    ("commit", .text m.commit),
    ("tx_sync_percentage", .nat m.txSyncPercentage),
    ("tx_sync_raw_percentage", .nat m.txSyncRawPercentage),
    ("checkpoint_sync_percentage", .nat m.checkpointSyncPercentage),
    ("checkpoint_sync_raw_percentage", .nat m.checkpointSyncRawPercentage),
    ("windows", m.windows.toJson),
    ("system_state", .option Chain.SystemState.toJson m.systemState),
    ("epoch", .option Chain.EpochInfo.toJson m.epoch)]

end FleetHealth
