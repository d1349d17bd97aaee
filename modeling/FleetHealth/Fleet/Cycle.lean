import FleetHealth.Fleet.Collect
import FleetHealth.Fleet.Report
import FleetHealth.Fleet.Telemetry
import FleetHealth.Metrics.Health
import FleetHealth.Metrics.Progress

/-! # Cycles

A cycle collects the reference table first, chooses the reference among its hosts,
collects the other tables, classifies all hosts against the reference, and derives the
statistics of the reference's snapshot.

The state of the fleet is shared with others, who may switch tables on and off while a
cycle runs. So a cycle touches it at four moments only, each a function of its own:
`take` at the beginning, `restore` or `replace` after the work, `publish` at the end.
-/
namespace FleetHealth.Fleet

open Chain Clock Gateway Net

inductive Unavailable where
  | noHosts (failures : Nat)
  | noProgress (hosts : Nat)
deriving DecidableEq, Repr

def Unavailable.message : Unavailable → String
  | .noHosts failures => s!"no {Table.rpc.name} hosts collected ({failures} failures)"
  | .noProgress hosts => s!"none of {hosts} rpc hosts reported chain progress"

inductive CycleError where
  | noReferenceEndpoints
  | noActiveTables
  | referenceUnavailable (reason : Unavailable)
deriving DecidableEq, Repr

def CycleError.message : CycleError → String
  | .noReferenceEndpoints => "no reference rpc endpoints configured"
  | .noActiveTables => "all tables are disabled"
  | .referenceUnavailable reason => "reference rpc unavailable: " ++ reason.message

inductive CycleFault where
  | failed (e : CycleError)
  /-- The powers of reporters overflow, and the cycle never returns. -/
  | overflow
deriving DecidableEq, Repr

abbrev Carried := PerTable (Option (Keyed Metrics))

def Carried.none : Carried := .const Option.none

def Carried.of (c : Carried) (table : Table) : Keyed Metrics := (c.get table).getD .empty

def Carried.size (c : Carried) : Nat := Number.sumOf (Table.all.map fun t => (c.of t).size)

structure FleetState where
  /-- The tables the next cycle polls. -/
  active : TableSet
  lastReport : Option CycleReport
  lastError : Option String
  carried : Carried

structure Taken where
  active : TableSet
  carried : Carried

namespace FleetState

def new (active : TableSet) : FleetState := ⟨active, none, none, .none⟩

/-- Switches a table on or off. Nothing is carried for a table that is off. -/
def setActive (s : FleetState) (table : Table) (active : Bool) : FleetState :=
  if active then { s with active := s.active.set table true }
  else { s with active := s.active.set table false, carried := s.carried.set table none }

def take (s : FleetState) (referenceEndpoints : List Address) :
    Except CycleError (Taken × FleetState) :=
  if s.active.toList = [] then .error .noActiveTables
  else if !s.active.rpc || referenceEndpoints = [] then .error .noReferenceEndpoints
  else .ok (⟨s.active, s.carried⟩, { s with carried := .none })

/-- What a table carries after metrics were put back; those take precedence. -/
def putBack (held back : Option (Keyed Metrics)) : Option (Keyed Metrics) :=
  match back with
  | none => held
  | some back => some ((held.getD .empty).insertAll back.entries)

def restore (s : FleetState) (back : Carried) : FleetState :=
  { s with carried := .build fun t =>
      if s.active.get t then putBack (s.carried.get t) (back.get t) else s.carried.get t }

def replace (s : FleetState) (next : Carried) : FleetState :=
  { s with carried := .build fun t => if s.active.get t then next.get t else none }

def publish (s : FleetState) : Except CycleFault CycleReport → FleetState
  | .ok report => { s with lastReport := some report, lastError := none }
  | .error (.failed e) => { s with lastError := some e.message }
  | .error .overflow => s

end FleetState

structure Controller where
  collector : Collector
  endpoints : PerTable (List Address)
  tolerance : Tolerance
  priceField : PriceField

structure World where
  /-- The replies to the tasks of a table. -/
  gateways : Table → Address → Gateways
  started : Instant
  /-- The time at which values are taken in. The program looks at the clock for each value, and
  only a snapshot that comes about the end of its epoch can tell. -/
  now : Instant
  finished : Instant
  cancelled : Bool

def World.surroundings (w : World) (table : Table) : Surroundings where
  gateways := w.gateways table
  now := w.now
  cancelled := w.cancelled

def isEligible (h : Host) : Bool :=
  h.metrics.updated && 0 < h.metrics.latestCheckpoint && 0 < h.metrics.totalTransactionBlocks

/-- Is the first host not ahead of the second? Checkpoints count before transactions. -/
def notAhead (a b : Metrics) : Bool :=
  a.latestCheckpoint < b.latestCheckpoint
    || (a.latestCheckpoint = b.latestCheckpoint
      && a.totalTransactionBlocks ≤ b.totalTransactionBlocks)

def betterOf (best : Option (Nat × Host)) (next : Nat × Host) : Option (Nat × Host) :=
  match best with
  | none => some next
  | some b => if notAhead b.2.metrics next.2.metrics then some next else some b

/-- The eligible host with the most progress, with its index; of equal ones the last. -/
def bestHost (hosts : List Host) : Option (Nat × Host) :=
  (hosts.zipIdx.filterMap fun h => if isEligible h.1 then some (h.2, h.1) else none).foldl
    betterOf none

def selectReference (hosts : List Host) : Option Nat := (bestHost hosts).map (·.1)

def refreshProgress (table : Table) (reference : Metrics) (host : Host) : Host :=
  if table = .validator then host
  else
    let (metrics, error) := host.metrics.updateProgress reference
    let refreshed := { host with metrics := metrics }
    match error with
    | some e => refreshed.note e.message
    | none => refreshed

def grade (table : Table) (reference : Metrics) (tolerance : Tolerance) (host : Host) : Host :=
  let host := refreshProgress table reference host
  { host with status := classify host.metrics reference table tolerance }

structure Counts where
  hosts : Nat
  failures : Nat
deriving DecidableEq, Repr

def Counts.add (a b : Counts) : Counts := ⟨a.hosts + b.hosts, a.failures + b.failures⟩

structure TableOutcome where
  report : Option TableReport
  /-- Metrics of addresses without a host. -/
  retained : Option (Keyed Metrics)
  warnings : List String
  counts : Counts

namespace TableOutcome

def skipped : TableOutcome := ⟨none, none, [], ⟨0, 0⟩⟩

def collected (table : Table) (reference : Metrics) (tolerance : Tolerance) (c : Collected) :
    TableOutcome where
  report := some ⟨table, c.hosts.map (grade table reference tolerance), c.errors.map (·.message)⟩
  retained := some c.retained
  warnings := []
  counts := ⟨c.hosts.length, c.errors.length⟩

def failed (e : NoHosts) : TableOutcome := ⟨none, some e.retained, [e.message], ⟨0, e.errors.length⟩⟩

def carried (o : TableOutcome) : Option (Keyed Metrics) :=
  match o.report with
  | some r => some ((o.retained.getD .empty).insertAll (r.hosts.map Host.carried))
  | none => o.retained

end TableOutcome

structure Statistics where
  gas : Option GasStatistics
  referencePrice : Option Nat
  reports : List ValidatorReport
  warnings : List String

def valueAndWarning {ε α : Type} (message : ε → String) : Except ε α → Option α × List String
  | .ok a => (some a, [])
  | .error e => (none, [message e])

/-- There are none if the reports overflow. -/
def statistics (reference : Host) (field : PriceField) : Option Statistics :=
  match reference.metrics.systemState with
  | some state =>
    let gas := valueAndWarning GasError.message (gasStatistics state.activeValidators field)
    let price := valueAndWarning StateError.message state.referencePrice
    match state.reports with
    | .ok reports => some ⟨gas.1, price.1, reports, gas.2 ++ price.2⟩
    | .error (.refused e) => some ⟨gas.1, price.1, [], gas.2 ++ price.2 ++ [e.message]⟩
    | .error .overflow => none
  | none => some ⟨none, none, [], ["reference " ++ toString reference.address
      ++ " returned no system state"]⟩

inductive Work where
  /-- The metrics are to be put back. -/
  | failed (reason : Unavailable) (back : Carried)
  /-- The tables are counted, and the metrics are gone. -/
  | overflow (counts : Counts)
  /-- The metrics are to be carried on. -/
  | done (report : CycleReport) (next : Carried) (counts : Counts)

namespace Controller

def dependent (c : Controller) (w : World) (taken : Taken) (reference : Metrics) (table : Table) :
    TableOutcome :=
  if !taken.active.get table || c.endpoints.get table = [] then .skipped
  else match c.collector.collect (w.surroundings table) table (c.endpoints.get table)
      (taken.carried.of table) with
    | .ok collected => .collected table reference c.tolerance collected
    | .error e => .failed e

def complete (c : Controller) (w : World) (taken : Taken) (collected : Collected)
    (reference : Host) : Work :=
  let outcomes : PerTable TableOutcome :=
    ⟨.collected .rpc reference.metrics c.tolerance collected,
      c.dependent w taken reference.metrics .node,
      c.dependent w taken reference.metrics .validator⟩
  let counts := (outcomes.rpc.counts.add outcomes.node.counts).add outcomes.validator.counts
  match statistics reference c.priceField with
  | none => .overflow counts
  | some stats =>
    .done {
        startedAt := w.started
        finishedAt := w.finished
        reference := reference.address
        tables := .build fun t => (outcomes.get t).report
        referencePrice := stats.referencePrice
        gas := stats.gas
        epoch := reference.metrics.epoch
        validatorReports := stats.reports
        warnings := outcomes.node.warnings ++ outcomes.validator.warnings ++ stats.warnings }
      (.build fun t => (outcomes.get t).carried) counts

def work (c : Controller) (w : World) (taken : Taken) : Work :=
  match c.collector.collect (w.surroundings .rpc) .rpc c.endpoints.rpc (taken.carried.of .rpc) with
  | .error e => .failed (.noHosts e.errors.length) (taken.carried.set .rpc (some e.retained))
  | .ok collected =>
    match bestHost collected.hosts with
    | none => .failed (.noProgress collected.hosts.length)
        (taken.carried.set .rpc
          (some (collected.retained.insertAll (collected.hosts.map Host.carried))))
    | some best => c.complete w taken collected best.2

end Controller

def Work.result : Work → Except CycleFault CycleReport
  | .failed reason _ => .error (.failed (.referenceUnavailable reason))
  | .overflow _ => .error .overflow
  | .done report _ _ => .ok report

def Work.counts : Work → Counts
  | .failed _ _ => ⟨0, 0⟩
  | .overflow counts | .done _ _ counts => counts

def FleetState.settle (s : FleetState) : Work → FleetState
  | .failed _ back => s.restore back
  | .overflow _ => s
  | .done _ next _ => s.replace next

def Telemetry.count (t : Telemetry) (counts : Counts) : Telemetry :=
  (t.addHosts counts.hosts).addFailures counts.failures

/-- The prices change only together. -/
def Telemetry.notePrices (t : Telemetry) (report : CycleReport) : Telemetry :=
  match report.referencePrice, report.gas with
  | some price, some gas => t.setPrices price gas.estimatedNext
  | _, _ => t

def Telemetry.publish (t : Telemetry) (elapsed : Nat) : Except CycleFault CycleReport → Telemetry
  | .ok report =>
    ((t.setLastCycle elapsed).countRun.setStatuses (report.hosts.map (·.status))).notePrices report
  | .error (.failed _) => (t.setLastCycle elapsed).countFailed
  | .error .overflow => t

structure Monitor where
  fleet : FleetState
  telemetry : Telemetry

/-- Whole milliseconds; none if the clock was set back. -/
def World.elapsed (w : World) : Nat := ((w.finished.ns - w.started.ns) / nsPerMs).toNat

def Monitor.publish (m : Monitor) (elapsed : Nat) (result : Except CycleFault CycleReport) :
    Monitor :=
  ⟨m.fleet.publish result, m.telemetry.publish elapsed result⟩

/-- Runs one cycle. `during` is what others do to the state while the gateways are being
called; if the cycle fails before that, they come after it. Of a cycle that overflows, the
monitor is what it leaves behind. -/
def Monitor.run (m : Monitor) (c : Controller) (w : World) (during : FleetState → FleetState) :
    Monitor × Except CycleFault CycleReport :=
  match m.fleet.take c.endpoints.rpc with
  | .error e =>
    let m := m.publish w.elapsed (.error (.failed e))
    ({ m with fleet := during m.fleet }, .error (.failed e))
  | .ok (taken, fleet) =>
    let work := c.work w taken
    let settled : Monitor := ⟨(during fleet).settle work, m.telemetry.count work.counts⟩
    (settled.publish w.elapsed work.result, work.result)

end FleetHealth.Fleet
