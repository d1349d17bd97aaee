import FleetHealth.Fleet.Status
import FleetHealth.Json.Basic
import FleetHealth.Number.Numeral

/-! # Telemetry of the monitor itself

Counters start again at zero after the largest one. There are two exports, one as JSON
and one in the form of a metrics page.
-/
namespace FleetHealth.Fleet

open Number

structure Telemetry where
  cyclesRun : Nat
  cyclesFailed : Nat
  hostsCollected : Nat
  hostFailures : Nat
  lastCycleMs : Nat
  referencePrice : Nat
  estimatedPrice : Nat
  green : Nat
  yellow : Nat
  red : Nat
deriving DecidableEq, Repr

namespace Telemetry

def zero : Telemetry := ⟨0, 0, 0, 0, 0, 0, 0, 0, 0, 0⟩

def countRun (t : Telemetry) : Telemetry := { t with cyclesRun := wrapCounter (t.cyclesRun + 1) }

def countFailed (t : Telemetry) : Telemetry :=
  { t with cyclesFailed := wrapCounter (t.cyclesFailed + 1) }

def addHosts (t : Telemetry) (count : Nat) : Telemetry :=
  { t with hostsCollected := wrapCounter (t.hostsCollected + count) }

def addFailures (t : Telemetry) (count : Nat) : Telemetry :=
  { t with hostFailures := wrapCounter (t.hostFailures + count) }

def setLastCycle (t : Telemetry) (ms : Nat) : Telemetry := { t with lastCycleMs := ms }

def setPrices (t : Telemetry) (reference estimated : Nat) : Telemetry :=
  { t with referencePrice := reference, estimatedPrice := estimated }

/-- Counts the verdicts of a cycle; hosts without one are not counted. -/
def setStatuses (t : Telemetry) (statuses : List Status) : Telemetry :=
  { t with
    green := statuses.count .green
    yellow := statuses.count .yellow
    red := statuses.count .red }

def family (name help type : String) (samples : List (String × Nat)) : String :=
  "# HELP " ++ name ++ " " ++ help ++ "\n# TYPE " ++ name ++ " " ++ type ++ "\n"
    ++ String.join (samples.map fun s => name ++ s.1 ++ " " ++ toString s.2 ++ "\n") ++ "\n"

def single (name help type : String) (value : Nat) : String := family name help type [("", value)]

def statusLabel (status : Status) : String := "\x7bstatus=\"" ++ status.name ++ "\"\x7d"

def toPage (t : Telemetry) (uptime : Nat) : String :=
  single "fleet_monitor_uptime_seconds" "Monitor uptime in seconds" "gauge" uptime
  ++ single "fleet_monitor_cycles_total" "Completed collection cycles" "counter" t.cyclesRun
  ++ single "fleet_monitor_cycles_failed_total" "Cycles aborted by a fatal error" "counter"
    t.cyclesFailed
  ++ single "fleet_monitor_last_cycle_milliseconds" "Duration of the last cycle" "gauge"
    t.lastCycleMs
  ++ single "fleet_monitor_hosts_collected_total" "Hosts built" "counter" t.hostsCollected
  ++ single "fleet_monitor_host_failures_total" "Addresses dropped from a cycle" "counter"
    t.hostFailures
  ++ family "fleet_monitor_hosts" "Hosts per health verdict in the last cycle" "gauge"
    [(statusLabel .green, t.green), (statusLabel .yellow, t.yellow), (statusLabel .red, t.red)]
  ++ single "fleet_monitor_reference_gas_price" "Reference gas price of the current epoch" "gauge"
    t.referencePrice
  ++ single "fleet_monitor_estimated_gas_price" "Estimated next reference gas price" "gauge"
    t.estimatedPrice

def toJson (t : Telemetry) (uptime : Nat) : Json :=
  .object [("uptime_secs", .nat uptime),
    ("cycles", .object [("run", .nat t.cyclesRun), ("failed", .nat t.cyclesFailed),
      ("last_ms", .nat t.lastCycleMs)]),
    ("hosts", .object [("collected", .nat t.hostsCollected), ("failures", .nat t.hostFailures),
      ("green", .nat t.green), ("yellow", .nat t.yellow), ("red", .nat t.red)]),
    ("gas", .object [("reference", .nat t.referencePrice),
      ("estimated_next", .nat t.estimatedPrice)])]

end Telemetry

end FleetHealth.Fleet
