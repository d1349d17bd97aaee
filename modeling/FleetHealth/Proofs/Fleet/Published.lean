import FleetHealth.Proofs.Fleet.CycleLog
import FleetHealth.Proofs.Fleet.History

/-! # What is published

After any log with a report in it, the last report is published, and the verdict gauges count
its hosts. The price gauges follow the last report that has both prices, which an older one
may be.
-/
namespace FleetHealth.Fleet

open Clock Gateway Net Number

/-! ## Verdicts of a report -/

theorem CycleReport.mem_hosts {report : CycleReport} {host : Host} (h : host ∈ report.hosts) :
    ∃ table graded, report.tables.get table = some graded ∧ host ∈ graded.hosts := by
  obtain ⟨graded, hgraded, hhost⟩ := List.mem_flatMap.mp h
  obtain ⟨table, -, htable⟩ := List.mem_filterMap.mp hgraded
  exact ⟨table, graded, htable, hhost⟩

/-- No host of a report is left without a verdict. -/
theorem Monitor.report_classified {m : Monitor} {c : Controller} {w : World}
    {during : FleetState → FleetState} {report : CycleReport} (h : (m.run c w during).2 = .ok report) :
    ∀ host ∈ report.hosts, host.status ≠ .grey := by
  intro host hhost
  obtain ⟨table, graded, htable, hmem⟩ := CycleReport.mem_hosts hhost
  obtain ⟨next, counts, hwork⟩ := work_of_report h
  obtain ⟨-, best, -, -, -, -, hgraded⟩ := Controller.work_report hwork
  obtain ⟨polled, -, hhosts⟩ := hgraded table graded htable
  rw [hhosts] at hmem
  obtain ⟨plain, -, rfl⟩ := List.mem_map.mp hmem
  exact classify_ne_grey _ _ _ _

/-- Hosts with a verdict are green, yellow or red. -/
theorem countP_statuses {hosts : List Host} (h : ∀ host ∈ hosts, host.status ≠ .grey) :
    hosts.countP (·.status = .green) + hosts.countP (·.status = .yellow)
      + hosts.countP (·.status = .red) = hosts.length := by
  induction hosts with
  | nil => rfl
  | cons host rest ih =>
    have hrest := ih fun other hother => h other (List.mem_cons_of_mem _ hother)
    have hhost := h host List.mem_cons_self
    cases hstatus : host.status with
    | grey => exact absurd hstatus hhost
    | green | yellow | red =>
      simp only [List.countP_cons, hstatus, List.length_cons]
      simp only [decide_true, reduceCtorEq, decide_false, if_true, Bool.false_eq_true, if_false]
      omega

/-! ## What a cycle publishes -/

namespace FleetState

/-- What readers of the state see of finished cycles. -/
def published (s : FleetState) : Option CycleReport × Option String := (s.lastReport, s.lastError)

theorem published_setActive (s : FleetState) (table : Table) (on : Bool) :
    (s.setActive table on).published = s.published := by
  cases on <;> rfl

theorem published_switchAll (s : FleetState) (switches : List (Table × Bool)) :
    (Shared.switchAll s switches).published = s.published := by
  induction switches generalizing s with
  | nil => rfl
  | cons next rest ih => exact (ih _).trans (published_setActive s next.1 next.2)

theorem published_settle (s : FleetState) (work : Work) : (s.settle work).published = s.published := by
  cases work <;> rfl

theorem published_publish (s : FleetState) (result : Except CycleFault CycleReport) :
    (s.publish result).published = match result with
      | .ok report => (some report, none)
      | .error (.failed e) => (s.published.1, some e.message)
      | .error .overflow => s.published := by
  rcases result with (_ | _) | _ <;> rfl

end FleetState

namespace PastCycle

variable {c : Controller}

def report? (c : Controller) (e : PastCycle) : Option CycleReport := (e.result c).toOption

theorem published_after (e : PastCycle) :
    (e.after c).fleet.published = match e.result c with
      | .ok report => (some report, none)
      | .error (.failed fault) => (e.before.fleet.published.1, some fault.message)
      | .error .overflow => e.before.fleet.published := by
  cases htake : e.before.fleet.take c.endpoints.rpc with
  | error fault =>
    obtain ⟨hresult, hfleet⟩ := Monitor.run_refused (w := e.world) htake e.during
    rw [after, result, hfleet, hresult]
    exact FleetState.published_switchAll ..
  | ok r =>
    obtain ⟨taken, fleet⟩ := r
    obtain ⟨hresult, hfleet⟩ := Monitor.run_worked (w := e.world) htake e.during
    obtain ⟨-, rfl, -⟩ := FleetState.take_ok htake
    rw [after, result, hfleet, hresult, FleetState.published_publish, FleetState.published_settle,
      during, FleetState.published_switchAll]
    rfl

/-- A cycle leaves the gauges as they are until it is published. -/
theorem gauges_after (e : PastCycle) : ∃ t : Telemetry,
    (e.after c).telemetry = t.publish e.world.elapsed (e.result c) ∧
      t.prices = e.before.telemetry.prices ∧ t.green = e.before.telemetry.green ∧
      t.yellow = e.before.telemetry.yellow ∧ t.red = e.before.telemetry.red := by
  cases htake : e.before.fleet.take c.endpoints.rpc with
  | error fault =>
    refine ⟨e.before.telemetry, ?_, rfl, rfl, rfl, rfl⟩
    rw [result, (Monitor.run_refused htake e.during).1]
    exact Monitor.telemetry_refused htake e.during
  | ok r =>
    refine ⟨e.before.telemetry.count (c.work e.world r.1).counts, ?_, rfl, rfl, rfl, rfl⟩
    rw [result, (Monitor.run_worked htake e.during).1]
    exact Monitor.telemetry_worked htake e.during

end PastCycle

/-! ## What a log has published -/

def latest {β : Type} (read : PastCycle → Option β) (log : List PastCycle) : Option β :=
  (log.filterMap read).getLast?

theorem latest_concat {β : Type} (read : PastCycle → Option β) (log : List PastCycle) (e : PastCycle) :
    latest read (log ++ [e]) = (read e).or (latest read log) := by
  unfold latest
  rw [List.filterMap_append]
  cases h : read e with
  | none => simp [h]
  | some b => simp [h]

structure Telemetry.CountsHosts (t : Telemetry) (report : CycleReport) : Prop where
  green : t.green = report.hosts.countP (·.status = .green)
  yellow : t.yellow = report.hosts.countP (·.status = .yellow)
  red : t.red = report.hosts.countP (·.status = .red)

variable {c : Controller} {start m : Monitor} {log : List PastCycle}

theorem Logged.lastReport (h : Logged c start log m) :
    m.fleet.lastReport = (latest (·.report? c) log).or start.fleet.lastReport := by
  induction h with
  | start => rfl
  | @switched log m _ table on ih =>
    exact (congrArg Prod.fst (FleetState.published_setActive m.fleet table on)).trans ih
  | @cycled log m _ w switches ih =>
    have hafter := congrArg Prod.fst (PastCycle.published_after (c := c) ⟨m, w, switches⟩)
    rw [latest_concat]
    refine hafter.trans ?_
    unfold PastCycle.report?
    cases PastCycle.result c ⟨m, w, switches⟩ with
    | ok report => rfl
    | error fault => cases fault <;> exact ih

/-- The last cycle that returned has left its error, or none. -/
theorem Logged.lastError (h : Logged c start log m) {e : PastCycle}
    (hlast : (log.filter (·.returned c)).getLast? = some e) :
    m.fleet.lastError = none ↔ e.succeeded c = true := by
  induction h with
  | start => cases hlast
  | @switched log m _ table on ih =>
    rw [← ih hlast]
    exact iff_of_eq (congrArg (·.2 = none) (FleetState.published_setActive m.fleet table on))
  | @cycled log m _ w switches ih =>
    have hafter := congrArg Prod.snd (PastCycle.published_after (c := c) ⟨m, w, switches⟩)
    refine (iff_of_eq (congrArg (· = none) hafter)).trans ?_
    by_cases hreturned : PastCycle.returned c ⟨m, w, switches⟩ = true
    · rw [List.filter_append, List.filter_cons_of_pos hreturned, List.filter_nil,
        List.getLast?_concat, Option.some.injEq] at hlast
      subst hlast
      unfold PastCycle.returned PastCycle.succeeded PastCycle.failed at *
      rcases hresult : PastCycle.result c ⟨m, w, switches⟩ with (_ | _) | report
      · exact ⟨nofun, nofun⟩
      · rw [hresult] at hreturned
        cases hreturned
      · exact ⟨fun _ => rfl, fun _ => rfl⟩
    · rw [List.filter_append, List.filter_cons_of_neg hreturned, List.filter_nil,
        List.append_nil] at hlast
      refine Iff.trans ?_ (ih hlast)
      unfold PastCycle.returned PastCycle.succeeded PastCycle.failed at hreturned
      rcases hresult : PastCycle.result c ⟨m, w, switches⟩ with (_ | _) | report
      · exact absurd (by rw [hresult]; rfl) hreturned
      · rfl
      · exact absurd (by rw [hresult]; rfl) hreturned

theorem Logged.prices (h : Logged c start log m) : m.telemetry.prices =
    (latest (fun e => (e.report? c).bind CycleReport.prices?) log).getD start.telemetry.prices := by
  induction h with
  | start => rfl
  | switched _ table on ih => exact ih
  | @cycled log m _ w switches ih =>
    obtain ⟨t, hafter, hprices, -⟩ := PastCycle.gauges_after (c := c) ⟨m, w, switches⟩
    rw [latest_concat, hafter]
    unfold PastCycle.report?
    cases PastCycle.result c ⟨m, w, switches⟩ with
    | ok report =>
      rw [Telemetry.publish_ok]
      dsimp only [Telemetry.prices, Except.toOption, Option.bind_some]
      -- a report that lacks one of the two leaves both gauges to the reports before it
      cases report.prices? with
      | none => exact hprices.trans ih
      | some quoted => rfl
    | error fault => cases fault <;> exact hprices.trans ih

theorem Logged.countsHosts (h : Logged c start log m) {report : CycleReport}
    (hlast : latest (·.report? c) log = some report) : m.telemetry.CountsHosts report := by
  induction h with
  | start => cases hlast
  | switched _ table on ih => exact ih hlast
  | @cycled log m _ w switches ih =>
    obtain ⟨t, hafter, -, hgreen, hyellow, hred⟩ := PastCycle.gauges_after (c := c) ⟨m, w, switches⟩
    rw [latest_concat] at hlast
    rw [hafter]
    unfold PastCycle.report? at hlast
    cases hresult : PastCycle.result c ⟨m, w, switches⟩ with
    | ok last =>
      rw [hresult] at hlast
      cases hlast
      rw [Telemetry.publish_ok]
      exact ⟨rfl, rfl, rfl⟩
    | error fault =>
      rw [hresult] at hlast
      obtain ⟨green, yellow, red⟩ := ih hlast
      cases fault <;> exact ⟨hgreen.trans green, hyellow.trans yellow, hred.trans red⟩

theorem exists_mem_of_latest {β : Type} {read : PastCycle → Option β} {b : β}
    (h : latest read log = some b) : ∃ e ∈ log, read e = some b :=
  List.mem_filterMap.mp (List.mem_of_getLast? h)

/-- The price gauges show each price that a report has. -/
structure Telemetry.Quotes (t : Telemetry) (report : CycleReport) : Prop where
  reference : ∀ price, report.referencePrice = some price → t.referencePrice = price
  estimated : ∀ gas, report.gas = some gas → t.estimatedPrice = gas.estimatedNext

/-- Telemetry with the prices of a report that has both quotes the report unless it has one only,
and another is shown. -/
theorem Telemetry.quotes_iff {t : Telemetry} {report : CycleReport}
    (h : ∀ quoted, report.prices? = some quoted → t.prices = quoted) :
    t.Quotes report ↔
      (∀ price, report.referencePrice = some price → report.gas = none → t.prices.1 = price) ∧
        ∀ gas, report.gas = some gas → report.referencePrice = none →
          t.prices.2 = gas.estimatedNext := by
  have hboth : ∀ price gas, report.referencePrice = some price → report.gas = some gas →
      t.prices = (price, gas.estimatedNext) := by
    intro price gas hprice hgas
    refine h _ ?_
    rw [CycleReport.prices?, hprice, hgas]
  constructor
  · exact fun hquotes => ⟨fun price hprice _ => hquotes.reference price hprice,
      fun gas hgas _ => hquotes.estimated gas hgas⟩
  · rintro ⟨hreference, hestimated⟩
    constructor
    · intro price hprice
      cases hgas : report.gas with
      | none => exact hreference price hprice hgas
      | some gas => exact congrArg Prod.fst (hboth price gas hprice hgas)
    · intro gas hgas
      cases hprice : report.referencePrice with
      | none => exact hestimated gas hgas hprice
      | some price => exact congrArg Prod.snd (hboth price gas hprice hgas)

theorem latest_bind {β γ : Type} {read : PastCycle → Option β} {f : β → Option γ} {b : β} {d : γ}
    (h : latest read log = some b) (hd : f b = some d) :
    latest (fun e => (read e).bind f) log = some d := by
  obtain ⟨front, hfront⟩ := List.getLast?_eq_some_iff.mp h
  unfold latest
  rw [← List.filterMap_filterMap, hfront, List.filterMap_append]
  simp [hd]

/-- After a log with a report the last report is published, with an error exactly if the last
cycle that returned had none, and its hosts are counted by their verdicts. The prices are those of the last
report that had both, so those of the last report are quoted unless it has only one of them and
an older one is shown. -/
theorem published_agrees_but_for_lone_prices (h : Logged c start log m) {report : CycleReport}
    (hlast : latest (·.report? c) log = some report) :
    m.fleet.lastReport = some report ∧
      (∃ e, (log.filter (·.returned c)).getLast? = some e ∧
        (m.fleet.lastError = none ↔ e.succeeded c = true)) ∧
      m.telemetry.CountsHosts report ∧
      m.telemetry.green + m.telemetry.yellow + m.telemetry.red = report.hosts.length ∧
      m.telemetry.prices =
        (latest (fun e => (e.report? c).bind CycleReport.prices?) log).getD start.telemetry.prices ∧
      (m.telemetry.Quotes report ↔
        (∀ price, report.referencePrice = some price → report.gas = none →
          m.telemetry.prices.1 = price) ∧
        ∀ gas, report.gas = some gas → report.referencePrice = none →
          m.telemetry.prices.2 = gas.estimatedNext) := by
  obtain ⟨e, he, hreport⟩ := exists_mem_of_latest hlast
  have hcounts := h.countsHosts hlast
  have hprices := h.prices
  refine ⟨?_, ?_, hcounts, ?_, hprices, ?_⟩
  · rw [h.lastReport, hlast]
    rfl
  · have hreturned : e ∈ log.filter (·.returned c) := by
      refine List.mem_filter.mpr ⟨he, ?_⟩
      have hsucceeded : e.succeeded c = true := Option.isSome_iff_exists.mpr ⟨report, hreport⟩
      rw [PastCycle.returned, hsucceeded, Bool.true_or]
    cases hend : (log.filter (·.returned c)).getLast? with
    | none => rw [List.getLast?_eq_none_iff.mp hend] at hreturned; cases hreturned
    | some e' => exact ⟨e', rfl, h.lastError hend⟩
  · have hresult : e.result c = .ok report := by
      unfold PastCycle.report? at hreport
      cases hresult : e.result c with
      | ok report' =>
        rw [hresult] at hreport
        cases hreport
        rfl
      | error fault =>
        rw [hresult] at hreport
        cases hreport
    rw [hcounts.green, hcounts.yellow, hcounts.red]
    exact countP_statuses (Monitor.report_classified hresult)
  · refine Telemetry.quotes_iff fun quoted hquoted => ?_
    rw [hprices, latest_bind hlast hquoted, Option.getD_some]

/-! ## A lone reference price -/

def pricedWorld (price : String) (validators : List Json) : World := .answering fun _ _ method =>
  match method with
  | .totalTransactionBlocks | .latestCheckpoint => .after 1 (.ok (.text "10"))
  | .systemState => .after 1 (.ok (.object [("referenceGasPrice", .text price),
      ("epochStartTimestampMs", .text "0"), ("epochDurationMs", .text "1000"),
      ("activeValidators", .list validators)]))
  | .validatorsApy => .never

def unstakedValidator : Json :=
  .object [("gasPrice", .text "900"), ("nextEpochGasPrice", .text "900"), ("votingPower", .text "10000"),
    ("stakingPoolSuiBalance", .text "0")]

def stakedValidator : Json :=
  .object [("gasPrice", .text "760"), ("nextEpochGasPrice", .text "760"), ("votingPower", .text "10000"),
    ("stakingPoolSuiBalance", .text "1")]

def quotedCycle : PastCycle :=
  ⟨⟨.new ⟨true, false, false⟩, .zero⟩, pricedWorld "750" [stakedValidator], []⟩

def unstakedCycle : PastCycle :=
  ⟨quotedCycle.after loneController, pricedWorld "800" [unstakedValidator], []⟩

theorem unstakedCycle_logged : Logged loneController ⟨.new ⟨true, false, false⟩, .zero⟩
    [quotedCycle, unstakedCycle] (unstakedCycle.after loneController) :=
  (Logged.start.cycled (pricedWorld "750" [stakedValidator]) []).cycled
    (pricedWorld "800" [unstakedValidator]) []

theorem unstakedCycle_report :
    ∃ report, latest (·.report? loneController) [quotedCycle, unstakedCycle] = some report ∧
      report.referencePrice = some 800 ∧ report.gas = none ∧ report.hosts.length = 1 := by
  have hfound : ((latest (·.report? loneController) [quotedCycle, unstakedCycle]).map
      fun r => (r.referencePrice, r.gas, r.hosts.length)) = some (some 800, none, 1) := by
    decide +kernel
  obtain ⟨report, hlast, hsame⟩ := Option.map_eq_some_iff.mp hfound
  rw [Prod.mk.injEq, Prod.mk.injEq] at hsame
  exact ⟨report, hlast, hsame⟩

/-- The second of two reports has a reference price only, and the gauges keep the two of the
first. -/
theorem older_prices_stay :
    ∃ report, latest (·.report? loneController) [quotedCycle, unstakedCycle] = some report ∧
      (unstakedCycle.after loneController).fleet.lastReport = some report ∧
      report.referencePrice = some 800 ∧
      (unstakedCycle.after loneController).telemetry.prices = (750, 760) ∧
      (unstakedCycle.after loneController).telemetry.green
        + (unstakedCycle.after loneController).telemetry.yellow
        + (unstakedCycle.after loneController).telemetry.red = 1 := by
  obtain ⟨report, hlast, hprice, -, hlength⟩ := unstakedCycle_report
  obtain ⟨hreport, -, -, htotal, -, -⟩ :=
    published_agrees_but_for_lone_prices unstakedCycle_logged hlast
  exact ⟨report, hlast, hreport, hprice, by decide +kernel, htotal.trans hlength⟩

/-- The gauges do not always quote the last report. -/
theorem lone_price_goes_unquoted :
    ¬∀ (c : Controller) (start m : Monitor) (log : List PastCycle) (report : CycleReport),
      Logged c start log m → latest (·.report? c) log = some report → m.telemetry.Quotes report := by
  intro hall
  obtain ⟨report, hlast, hprice, -, -⟩ := unstakedCycle_report
  have hquoted := (hall _ _ _ _ report unstakedCycle_logged hlast).reference 800 hprice
  have hgauge : (unstakedCycle.after loneController).telemetry.referencePrice = 750 := by
    decide +kernel
  rw [hgauge] at hquoted
  cases hquoted

end FleetHealth.Fleet
