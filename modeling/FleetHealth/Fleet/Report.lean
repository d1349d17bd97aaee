import FleetHealth.Chain.Reports
import FleetHealth.Fleet.Host
import FleetHealth.Metrics.Encode

/-! # Reports

What one cycle has learned, and its form as JSON.
-/
namespace FleetHealth.Fleet

open Chain Clock Gateway Net

structure TableReport where
  table : Table
  hosts : List Host
  errors : List String
deriving Repr

def TableReport.count (r : TableReport) (status : Status) : Nat :=
  r.hosts.countP (·.status = status)

def TableReport.healthy (r : TableReport) : Nat := r.hosts.countP (·.status.isHealthy)

structure CycleReport where
  startedAt : Instant
  finishedAt : Instant
  /-- The address of the reference. -/
  reference : Address
  /-- The tables that gave a host. -/
  tables : PerTable (Option TableReport)
  referencePrice : Option Nat
  gas : Option GasStatistics
  epoch : Option EpochInfo
  validatorReports : List ValidatorReport
  /-- Problems that did not end the cycle. -/
  warnings : List String
deriving Repr

def CycleReport.tableReports (r : CycleReport) : List TableReport :=
  Table.all.filterMap r.tables.get

def CycleReport.hosts (r : CycleReport) : List Host := r.tableReports.flatMap (·.hosts)

def addressJson (a : Address) : Json :=
  .object [("host", .text a.host), ("rpc_port", .option .nat a.rpcPort),
    ("metrics_port", .option .nat a.metricsPort), ("peer_port", .option .nat a.peerPort),
    ("path", .option .text a.path), ("tls", .bool a.tls)]

def Host.toJson (h : Host) : Json :=
  .object [("table", .text h.table.name), ("address", addressJson h.address),
    ("rpc_url", .option .text h.rpcUrl), ("metrics_url", .option .text h.metricsUrl),
    ("status", .text h.status.name), ("location", .option Location.toJson h.location),
    ("metrics", h.metrics.toJson), ("errors", .texts h.errors)]

def TableReport.toJson (r : TableReport) : Json :=
  .object [("table", .text r.table.name), ("hosts", .list (r.hosts.map Host.toJson)),
    ("errors", .texts r.errors)]

def CycleReport.toJson (r : CycleReport) : Json :=
  .object [("started_at", .text r.startedAt.reportText),
    ("finished_at", .text r.finishedAt.reportText),
    ("reference", addressJson r.reference),
    ("tables", .object (r.tableReports.map fun t => (t.table.name, t.toJson))),
    ("reference_gas_price", .option .nat r.referencePrice),
    ("gas", .option GasStatistics.toJson r.gas),
    ("epoch", .option EpochInfo.toJson r.epoch),
    ("validator_reports", .list (r.validatorReports.map ValidatorReport.toJson)),
    ("warnings", .texts r.warnings)]

end FleetHealth.Fleet
