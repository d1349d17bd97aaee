import FleetHealth.Proofs.Fleet.Leaders
import FleetHealth.Proofs.Fleet.Reachable
import FleetHealth.Proofs.Fleet.Reporting
import FleetHealth.Proofs.Metrics.Classification

/-! # Verdicts of a cycle

In every state that the fleet can reach, whatever others do to it while cycles run, only
windows are carried. So the counters of a report are what the calls of its own cycle have
brought, and its verdicts are the ones that these counters call for.
-/
namespace FleetHealth.Fleet

open Clock Gateway Net Number

/-- Everything carried has the counters of fresh metrics. -/
def Carried.Sound (carried : Carried) : Prop :=
  ∀ table, ∀ e ∈ (carried.of table).entries, e.2.Sound

theorem Collector.startingMetrics_sound (c : Collector) {carried : Keyed Metrics}
    (h : ∀ e ∈ carried.entries, e.2.Sound) (a : Address) : (c.startingMetrics carried a).Sound := by
  rcases c.startingMetrics_cases carried a with hnew | hmem
  · rw [hnew]
    exact Metrics.sound_ofWindows _
  · exact h _ hmem

theorem FleetState.Reachable.carried_sound {c : Controller} {s : FleetState} (h : s.Reachable c) :
    s.carried.Sound := by
  have hpasses : c.PassesOn fun _ _ m => m.Sound := by
    intro w carried hcarried table a ha
    exact Metrics.sound_ofWindows _
  exact h.carried_holds hpasses

namespace Collector

variable {c : Collector} {s : Surroundings} {table : Table} {addresses : List Address}
  {carried : Keyed Metrics} {polled : Collected} {host : Host}

/-- A host of a collection comes from the task of an address, and has counted from zero. -/
theorem host_of_collect (hcarried : ∀ e ∈ carried.entries, e.2.Sound)
    (hpolled : c.collect s table addresses carried = .ok polled) (hhost : host ∈ polled.hosts) :
    host.address ∈ distinctAddresses addresses ∧ host.metrics.Sound := by
  have hmem : host ∈ hostsOf (c.collect s table addresses carried) := hpolled ▸ hhost
  obtain ⟨haddress, hends⟩ := ends_of_mem_hosts hmem
  have hcontinues := ends_host (TaskEnd.host?_eq_some.mpr hends)
  exact ⟨haddress, hcontinues.ingested.sound (c.startingMetrics_sound hcarried host.address)⟩

/-- A host of a collection has met with the events of its calls, from what was carried for it on. -/
theorem met_of_collect (hpolled : c.collect s table addresses carried = .ok polled)
    (hhost : host ∈ polled.hosts) :
    ∃ outcomes, MeetsAll s.now (c.startingMetrics carried host.address)
      (((c.context s host.address).calls host).flatMap eventsOf) outcomes host.metrics := by
  have hmem : host ∈ hostsOf (c.collect s table addresses carried) := hpolled ▸ hhost
  exact met_of_built (ends_of_mem_hosts hmem).2

/-- Hosts of a collection differ in their addresses. -/
theorem host_eq_of_address (hcarried : ∀ e ∈ carried.entries, e.2.Sound)
    (hpolled : c.collect s table addresses carried = .ok polled) {other : Host}
    (hhost : host ∈ polled.hosts) (hother : other ∈ polled.hosts)
    (h : other.address = host.address) : other = host := by
  have hkey : (hostsOf (c.collect s table addresses carried)).filter (·.key = host.address.key) =
      (c.ends s table carried host.address).host?.toList :=
    collect_hosts_key (host_of_collect hcarried hpolled hhost).1
  rw [hpolled] at hkey
  have hbuilt : ∀ h' ∈ polled.hosts, h'.address = host.address →
      (c.ends s table carried host.address).host? = some h' := by
    intro h' hmem haddress
    have hfound : h' ∈ (hostsOf (.ok polled)).filter (·.key = host.address.key) :=
      List.mem_filter.mpr ⟨hmem, by simp [Host.key, haddress]⟩
    rw [hkey, Option.mem_toList] at hfound
    exact hfound
  exact Option.some.inj ((hbuilt other hother h).symm.trans (hbuilt host hhost rfl))

end Collector

/-! ## The reference -/

theorem bestHost_eligible {hosts : List Host} {b : Nat × Host} (h : bestHost hosts = some b) :
    b.2 ∈ hosts ∧ isEligible b.2 = true := by
  obtain ⟨hmem, heligible, -⟩ := mem_leaders.mp (bestHost_leads h)
  exact ⟨hmem, heligible⟩

theorem counted_of_eligible {h : Host} (heligible : isEligible h = true) : h.metrics.Counted := by
  simp only [isEligible, Bool.and_eq_true, decide_eq_true_eq] at heligible
  exact ⟨heligible.2, heligible.1.2⟩

/-- The tables of a report are graded against a host of the reference table. -/
theorem Controller.work_report {c : Controller} {w : World} {taken : Taken} {report : CycleReport}
    {next : Carried} {counts : Counts} (h : c.work w taken = .done report next counts) :
    ∃ collected best, c.collector.collect (w.surroundings .rpc) .rpc c.endpoints.rpc
          (taken.carried.of .rpc) = .ok collected ∧
      bestHost collected.hosts = some best ∧ report.reference = best.2.address ∧
      (∃ rpc, report.tables.rpc = some rpc ∧
        rpc.hosts = collected.hosts.map (grade .rpc best.2.metrics c.tolerance)) ∧
      ∀ table graded, report.tables.get table = some graded → ∃ polled,
        c.collector.collect (w.surroundings table) table (c.endpoints.get table)
            (taken.carried.of table) = .ok polled ∧
          graded.hosts = polled.hosts.map (grade table best.2.metrics c.tolerance) := by
  have hdependent : ∀ reference table graded,
      (c.dependent w taken reference table).report = some graded → ∃ polled,
        c.collector.collect (w.surroundings table) table (c.endpoints.get table)
            (taken.carried.of table) = .ok polled ∧
          graded.hosts = polled.hosts.map (grade table reference c.tolerance) := by
    intro reference table graded hgraded
    unfold dependent at hgraded
    split at hgraded
    · cases hgraded
    · split at hgraded
      · next polled hpolled =>
        cases hgraded
        exact ⟨polled, hpolled, rfl⟩
      · cases hgraded
  unfold work at h
  split at h
  · cases h
  · next collected hcollect =>
    split at h
    · cases h
    · next best hbest =>
      unfold complete at h
      dsimp only at h
      split at h
      · cases h
      cases h
      refine ⟨collected, best, hcollect, hbest, rfl, ⟨_, rfl, rfl⟩, ?_⟩
      intro table graded hgraded
      cases table with
      | rpc =>
        cases hgraded
        exact ⟨collected, hcollect, rfl⟩
      | node => exact hdependent _ .node graded hgraded
      | validator => exact hdependent _ .validator graded hgraded

/-! ## Verdicts -/

/-- A host of a report next to the reference, after the calls of its cycle. These have found
nothing but windows, and what they have brought are the counters of the host. Its verdict is due,
its percentages are up to date, nothing in them overflows, and it is failing if no value was
taken in. -/
structure Judged (context : TaskContext) (windows : RateWindows) (outcomes : List Outcome)
    (tolerance : Tolerance) (reference : Metrics) (host : Host) : Prop where
  counted : ∃ brought,
    MeetsAll context.now (.ofWindows windows) ((context.calls host).flatMap eventsOf) outcomes brought ∧
      host.metrics.withoutProgress = brought.withoutProgress
  due : host.status = dueStatus host.metrics reference tolerance
  progress : host.metrics.updateProgress reference = (host.metrics, none)
  transactions_fit : 2 * (host.metrics.totalTransactionBlocks * 100)
    + reference.totalTransactionBlocks ≤ amountMax
  checkpoint_fits : 2 * (host.metrics.latestCheckpoint * 100) + reference.latestCheckpoint ≤ amountMax
  idle : (∀ kind, .ingested kind ∉ outcomes) → host.status = .red

theorem dueStatus_withoutProgress (host reference : Metrics) (tolerance : Tolerance) :
    dueStatus host.withoutProgress reference.withoutProgress tolerance =
      dueStatus host reference tolerance :=
  rfl

/-- Verdicts are due to counters, not to percentages. -/
theorem dueStatus_updateProgress (host reference leader : Metrics) (tolerance : Tolerance) :
    dueStatus (host.updateProgress leader).1 (reference.updateProgress leader).1 tolerance =
      dueStatus host reference tolerance := by
  rw [← dueStatus_withoutProgress, Metrics.withoutProgress_updateProgress,
    Metrics.withoutProgress_updateProgress, dueStatus_withoutProgress]

/-- Percentages that are up to date stay as they are. -/
theorem updateProgress_twice {reference : Metrics} (h : reference.Counted) (m : Metrics) :
    (m.updateProgress reference).1.updateProgress (reference.updateProgress reference).1 =
      ((m.updateProgress reference).1, none) := by
  have hprogress := Metrics.updateProgress_eq h
  have hgraded : (reference.updateProgress reference).1.Counted := by
    rw [hprogress]
    exact ⟨h.transactions, h.checkpoint⟩
  rw [Metrics.updateProgress_eq hgraded, hprogress, hprogress]
  rfl

/-- Grading refreshes the percentages and sets the verdict that is due. -/
theorem grade_eq {table : Table} (htable : table ≠ .validator) {tolerance : Tolerance} {host : Host}
    {reference : Metrics} (hhost : host.metrics.Sound) (hcounted : reference.Counted) :
    grade table reference tolerance host = { host with
      metrics := (host.metrics.updateProgress reference).1
      status := dueStatus host.metrics reference tolerance } := by
  rw [← classify_updateProgress hhost hcounted htable]
  unfold grade refreshProgress
  simp only [if_neg htable, Metrics.updateProgress_eq hcounted]

theorem calls_grade (context : TaskContext) (table : Table) (reference : Metrics) (tolerance : Tolerance)
    (host : Host) : context.calls (grade table reference tolerance host) = context.calls host := by
  unfold grade refreshProgress
  dsimp only
  split
  · rfl
  · split <;> rfl

/-- Grading a host against the reference judges it against the graded reference. -/
theorem judged_grade {table : Table} (htable : table ≠ .validator) {tolerance : Tolerance}
    {context : TaskContext} {windows : RateWindows} {outcomes : List Outcome} {host reference : Host}
    (hmeets : MeetsAll context.now (.ofWindows windows) ((context.calls host).flatMap eventsOf) outcomes
      host.metrics)
    (hhost : host.metrics.Sound) (hreference : reference.metrics.Sound)
    (hcounted : reference.metrics.Counted) :
    Judged context windows outcomes tolerance (grade .rpc reference.metrics tolerance reference).metrics
      (grade table reference.metrics tolerance host) := by
  have hbrought : ∃ brought, MeetsAll context.now (.ofWindows windows)
      ((context.calls (grade table reference.metrics tolerance host)).flatMap eventsOf) outcomes brought ∧
        (grade table reference.metrics tolerance host).metrics.withoutProgress =
          brought.withoutProgress := by
    rw [calls_grade, grade_eq htable hhost hcounted]
    exact ⟨host.metrics, hmeets, Metrics.withoutProgress_updateProgress ..⟩
  rw [grade_eq htable hhost hcounted, grade_eq (by decide) hreference hcounted] at *
  have hprogress := Metrics.updateProgress_eq hcounted
  constructor
  · exact hbrought
  · exact (dueStatus_updateProgress ..).symm
  · exact updateProgress_twice hcounted host.metrics
  · dsimp only
    rw [hprogress, hprogress]
    exact dividend_le_amountMax hhost.transactions_le hreference.transactions_le
  · dsimp only
    rw [hprogress, hprogress]
    exact dividend_le_amountMax hhost.checkpoint_le hreference.checkpoint_le
  · dsimp only
    intro hnothing
    have hidle : host.metrics.updated = false := by
      rw [← Bool.not_eq_true, hmeets.updated_iff]
      rintro (⟨⟨⟩⟩ | ⟨kind, hkind⟩)
      exact hnothing kind hkind
    exact if_pos (.inl (hhost.idle hidle))

/-- A report comes from work on what was taken out of the state. -/
theorem Monitor.work_of_report {m : Monitor} {c : Controller} {w : World}
    {during : FleetState → FleetState} {report : CycleReport}
    (h : (m.run c w during).2 = .ok report) :
    ∃ next counts, c.work w ⟨m.fleet.active, m.fleet.carried⟩ = .done report next counts := by
  cases htake : m.fleet.take c.endpoints.rpc with
  | error e =>
    rw [(run_refused htake during).1] at h
    cases h
  | ok r =>
    obtain ⟨taken, fleet⟩ := r
    rw [(run_worked htake during).1] at h
    obtain ⟨rfl, -, -⟩ := FleetState.take_ok htake
    cases hwork : c.work w ⟨m.fleet.active, m.fleet.carried⟩ with
    | failed | overflow =>
      rw [hwork] at h
      cases h
    | done report' next counts =>
      rw [hwork] at h
      cases h
      exact ⟨next, counts, rfl⟩

/-- The address of the reference is that of one host only, in the report as when it was polled. -/
theorem graded_reference_unique {c : Collector} {s : Surroundings} {addresses : List Address}
    {carried : Keyed Metrics} {polled : Collected} {reference : Host} {tolerance : Tolerance}
    (hcarried : ∀ e ∈ carried.entries, e.2.Sound)
    (hpolled : c.collect s .rpc addresses carried = .ok polled) (hreference : reference ∈ polled.hosts) :
    ∀ other ∈ polled.hosts.map (grade .rpc reference.metrics tolerance),
      other.address = reference.address → other = grade .rpc reference.metrics tolerance reference := by
  intro other hother haddress
  obtain ⟨host, hhost, rfl⟩ := List.mem_map.mp hother
  have hsame : host.address = reference.address := by
    rw [← haddress]
    exact (grade_address ..).symm
  rw [Collector.host_eq_of_address hcarried hpolled hreference hhost hsame]

/-- In every report the hosts of the reference table and of the full nodes get the verdicts
that the counters of this cycle call for next to those of the reference, which has both
counters. -/
theorem report_verdicts_due {c : Controller} {m : Monitor} (hreachable : m.fleet.Reachable c)
    {w : World} {during : FleetState → FleetState} {report : CycleReport}
    (hreport : (m.run c w during).2 = .ok report) :
    ∃ rpc reference, report.tables.rpc = some rpc ∧
      (reference ∈ rpc.hosts ∧ reference.address = report.reference ∧
        ∀ other ∈ rpc.hosts, other.address = report.reference → other = reference) ∧
      0 < reference.metrics.totalTransactionBlocks ∧ 0 < reference.metrics.latestCheckpoint ∧
      ∀ table graded, report.tables.get table = some graded → ∀ host ∈ graded.hosts,
        host.status ≠ .grey ∧
          (table ≠ .validator → ∃ windows outcomes,
            c.collector.startingMetrics (m.fleet.carried.of table) host.address = .ofWindows windows ∧
            Judged (c.collector.context (w.surroundings table) host.address) windows outcomes c.tolerance
              reference.metrics host) := by
  have hcarried := hreachable.carried_sound
  obtain ⟨next, counts, hwork⟩ := Monitor.work_of_report hreport
  obtain ⟨collected, best, hcollect, hbest, haddress, ⟨rpc, hrpc, hhosts⟩, hgraded⟩ :=
    Controller.work_report hwork
  obtain ⟨hmem, heligible⟩ := bestHost_eligible hbest
  have hcounted := counted_of_eligible heligible
  have hsound := (Collector.host_of_collect (hcarried .rpc) hcollect hmem).2
  have hreference : grade .rpc best.2.metrics c.tolerance best.2 = _ :=
    grade_eq (by decide) hsound hcounted
  refine ⟨rpc, grade .rpc best.2.metrics c.tolerance best.2, hrpc, ⟨?_, ?_, ?_⟩, ?_, ?_, ?_⟩
  · rw [hhosts]
    exact List.mem_map.mpr ⟨best.2, hmem, rfl⟩
  · rw [haddress]
    exact grade_address ..
  · rw [hhosts, haddress]
    exact graded_reference_unique (hcarried .rpc) hcollect hmem
  · rw [hreference, Metrics.updateProgress_eq hcounted]
    exact hcounted.transactions
  · rw [hreference, Metrics.updateProgress_eq hcounted]
    exact hcounted.checkpoint
  · intro table graded htable host hhost
    obtain ⟨polled, hpolled, hmap⟩ := hgraded table graded htable
    rw [hmap] at hhost
    obtain ⟨plain, hplain, rfl⟩ := List.mem_map.mp hhost
    refine ⟨classify_ne_grey _ _ _ _, fun hvalidator => ?_⟩
    obtain ⟨windows, hstart⟩ := hreachable.starts_with_windows table plain.address
    obtain ⟨outcomes, hmeets⟩ := Collector.met_of_collect hpolled hplain
    have hhost := (Collector.host_of_collect (hcarried table) hpolled hplain).2
    rw [grade_address]
    exact ⟨windows, outcomes, hstart, judged_grade hvalidator (hstart ▸ hmeets) hhost hsound hcounted⟩

def pairController : Controller where
  collector := plainCollector
  endpoints := ⟨[loneEndpoint], [⟨"10.0.0.2", some 9000, some 9184, none, none, false⟩], []⟩
  tolerance := .default
  priceField := .current

def pairMonitor : Monitor := ⟨.new ⟨true, true, false⟩, .zero⟩

/-- The full node has half a percent of the reference's transactions, which is rounded up. -/
def pairWorld : World where
  gateways := fun table _ => {
    rpc := fun _ method => match method, table with
      | .totalTransactionBlocks, .rpc => .after 1 (.ok (.text "1000"))
      | .totalTransactionBlocks, _ => .after 1 (.ok (.text "5"))
      | .latestCheckpoint, _ => .after 1 (.ok (.text "1000"))
      | _, _ => .never
    scrape := fun _ _ => .never
    locate := fun _ => .never
    resolve := fun _ => none }
  started := ⟨0⟩
  now := ⟨0⟩
  finished := ⟨0⟩
  cancelled := false

def nodeFigures : Except CycleFault CycleReport → Option (List (Status × Nat × Nat))
  | .ok report => report.tables.node.map fun t => t.hosts.map fun h =>
      (h.status, h.metrics.totalTransactionBlocks, h.metrics.latestCheckpoint)
  | .error _ => none

theorem half_percent_is_yellow :
    ∃ report, (pairMonitor.run pairController pairWorld id).2 = .ok report ∧
      nodeFigures (.ok report) = some [(.yellow, 5, 1000)] ∧
      ∃ reference : Host, 0 < reference.metrics.totalTransactionBlocks ∧
        ∀ graded, report.tables.node = some graded → ∀ host ∈ graded.hosts, ∃ windows outcomes,
          Judged (pairController.collector.context (pairWorld.surroundings .node) host.address) windows
            outcomes .default reference.metrics host := by
  have hfigures : nodeFigures (pairMonitor.run pairController pairWorld id).2 =
      some [(.yellow, 5, 1000)] := by
    decide +kernel
  cases hreport : (pairMonitor.run pairController pairWorld id).2 with
  | error e =>
    rw [hreport] at hfigures
    cases hfigures
  | ok report =>
    obtain ⟨rpc, reference, -, -, htransactions, -, hverdicts⟩ := report_verdicts_due
      (FleetState.Reachable.new (c := pairController) ⟨true, true, false⟩ : pairMonitor.fleet.Reachable _)
      hreport
    refine ⟨report, rfl, hreport ▸ hfigures, reference, htransactions, ?_⟩
    intro graded hgraded host hhost
    obtain ⟨windows, outcomes, -, hjudged⟩ := (hverdicts .node graded hgraded host hhost).2 (by decide)
    exact ⟨windows, outcomes, hjudged⟩

end FleetHealth.Fleet
