import FleetHealth.Proofs.Fleet.Interleaving
import FleetHealth.Proofs.Fleet.TableAccounts

/-! # A log of cycles

One cycle after the other is run, and tables are switched between them and meanwhile. The
log has every cycle with the monitor as it began, from which its result and what each of its
tables collected can be told. A cycle that overflows has its place in the log too.
-/
namespace FleetHealth.Fleet

open Clock Gateway Net Number

def hasFailed : Except CycleFault CycleReport → Bool
  | .error (.failed _) => true
  | .error .overflow | .ok _ => false

structure PastCycle where
  before : Monitor
  world : World
  switches : List (Table × Bool)

namespace PastCycle

def during (e : PastCycle) (s : FleetState) : FleetState := Shared.switchAll s e.switches

def after (c : Controller) (e : PastCycle) : Monitor := (e.before.run c e.world e.during).1

def result (c : Controller) (e : PastCycle) : Except CycleFault CycleReport :=
  (e.before.run c e.world e.during).2

def succeeded (c : Controller) (e : PastCycle) : Bool := (e.result c).toOption.isSome

def failed (c : Controller) (e : PastCycle) : Bool := hasFailed (e.result c)

def returned (c : Controller) (e : PastCycle) : Bool := e.succeeded c || e.failed c

end PastCycle

/-- The cycles of the log, in this order, have led from the first monitor to the second. -/
inductive Logged (c : Controller) (start : Monitor) : List PastCycle → Monitor → Prop
  | start : Logged c start [] start
  | switched {log : List PastCycle} {m : Monitor} (before : Logged c start log m) (table : Table)
      (on : Bool) : Logged c start log { m with fleet := m.fleet.setActive table on }
  | cycled {log : List PastCycle} {m : Monitor} (before : Logged c start log m) (w : World)
      (switches : List (Table × Bool)) :
      Logged c start (log ++ [⟨m, w, switches⟩]) (PastCycle.after c ⟨m, w, switches⟩)

/-! ## What a cycle does to the telemetry -/

namespace Telemetry

def prices (t : Telemetry) : Nat × Nat := (t.referencePrice, t.estimatedPrice)

end Telemetry

def CycleReport.prices? (report : CycleReport) : Option (Nat × Nat) :=
  match report.referencePrice, report.gas with
  | some price, some gas => some (price, gas.estimatedNext)
  | _, _ => none

namespace Telemetry

theorem publish_ok (t : Telemetry) (elapsed : Nat) (report : CycleReport) :
    t.publish elapsed (.ok report) = { t with
      cyclesRun := wrapCounter (t.cyclesRun + 1)
      lastCycleMs := elapsed
      green := report.hosts.countP (·.status = .green)
      yellow := report.hosts.countP (·.status = .yellow)
      red := report.hosts.countP (·.status = .red)
      referencePrice := (report.prices?.getD t.prices).1
      estimatedPrice := (report.prices?.getD t.prices).2 } := by
  have hcount : ∀ status : Status, (report.hosts.map (·.status)).count status =
      report.hosts.countP (·.status = status) := by
    intro status
    rw [List.count_eq_countP, List.countP_map]
    rfl
  simp only [publish, setLastCycle, countRun, setStatuses, hcount, notePrices, CycleReport.prices?]
  cases report.referencePrice <;> cases report.gas <;> rfl

variable (t : Telemetry) (elapsed : Nat) (result : Except CycleFault CycleReport)

theorem publish_cyclesRun : (t.publish elapsed result).cyclesRun =
    if result.toOption.isSome then wrapCounter (t.cyclesRun + 1) else t.cyclesRun := by
  cases result with
  | ok report => rw [publish_ok]; rfl
  | error fault => cases fault <;> rfl

theorem publish_cyclesFailed : (t.publish elapsed result).cyclesFailed =
    if hasFailed result then wrapCounter (t.cyclesFailed + 1) else t.cyclesFailed := by
  cases result with
  | ok report => rw [publish_ok]; rfl
  | error fault => cases fault <;> rfl

theorem publish_hostsCollected : (t.publish elapsed result).hostsCollected = t.hostsCollected := by
  cases result with
  | ok report => rw [publish_ok]
  | error fault => cases fault <;> rfl

theorem publish_hostFailures : (t.publish elapsed result).hostFailures = t.hostFailures := by
  cases result with
  | ok report => rw [publish_ok]
  | error fault => cases fault <;> rfl

end Telemetry

namespace Monitor

variable {m : Monitor} {c : Controller} {w : World}

theorem telemetry_refused {e : CycleError} (h : m.fleet.take c.endpoints.rpc = .error e)
    (during : FleetState → FleetState) :
    (m.run c w during).1.telemetry = m.telemetry.publish w.elapsed (.error (.failed e)) := by
  unfold run
  rw [h]
  rfl

theorem telemetry_worked {taken : Taken} {fleet : FleetState}
    (h : m.fleet.take c.endpoints.rpc = .ok (taken, fleet)) (during : FleetState → FleetState) :
    (m.run c w during).1.telemetry =
      (m.telemetry.count (c.work w taken).counts).publish w.elapsed (c.work w taken).result := by
  unfold run
  rw [h]
  rfl

/-- What others do meanwhile does not change the result of a cycle. -/
theorem run_result_during (during : FleetState → FleetState) :
    (m.run c w during).2 = (m.run c w id).2 := by
  cases htake : m.fleet.take c.endpoints.rpc with
  | error e => rw [(run_refused htake during).1, (run_refused htake id).1]
  | ok r => rw [(run_worked htake during).1, (run_worked htake id).1]

end Monitor

end FleetHealth.Fleet
