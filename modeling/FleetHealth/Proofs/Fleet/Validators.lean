import FleetHealth.Proofs.Fleet.Verdicts
import FleetHealth.Proofs.Metrics.Uptime

/-! # Verdicts on validators

A validator is polled by one scrape and nothing else. Of all that the scrape brings only the
uptime decides the verdict, and what earlier cycles have brought does not count.
-/
namespace FleetHealth.Fleet

open Clock Exposition Gateway Net Number

/-! ## The uptime after a scrape -/

def pageUptime? (page : Keyed Scraped) : Option String :=
  (page.get? MetricKind.uptime.name).bind fun series => series.value.toCounter?.map uptimeText

theorem uptime_settle {host settled : Host} {r : Ingest} (h : host.settle? r = some settled) :
    settled.metrics.uptime = r.metrics.uptime := by
  unfold Host.settle? at h
  dsimp only at h
  split at h
  · cases h
    rfl
  · cases h
    rfl
  · cases h

theorem uptime_takeSeries {page : Keyed Scraped} {now : Instant} {kind : MetricKind}
    {host after : Host} (htake : takeSeries page now host kind = some after) :
    after.metrics.uptime =
      if kind = .uptime then (pageUptime? page).getD host.metrics.uptime
      else host.metrics.uptime := by
  unfold takeSeries at htake
  cases hseries : page.get? kind.name with
  | none =>
    simp only [hseries, Option.some.injEq] at htake
    subst htake
    split
    · next hkind =>
      subst hkind
      rw [pageUptime?, hseries]
      rfl
    · rfl
  | some series =>
    simp only [hseries] at htake
    rw [uptime_settle htake, Metrics.uptime_ingestScraped]
    split
    · next hkind =>
      subst hkind
      rw [pageUptime?, hseries]
      rfl
    · rfl

/-- A page brings an uptime once, however many series are taken from it. -/
theorem uptime_foldlM_takeSeries {page : Keyed Scraped} {now : Instant} {kinds : List MetricKind}
    {host after : Host} (htake : kinds.foldlM (takeSeries page now) host = some after) :
    after.metrics.uptime =
      if .uptime ∈ kinds then (pageUptime? page).getD host.metrics.uptime
      else host.metrics.uptime := by
  induction kinds generalizing host with
  | nil =>
    cases htake
    rfl
  | cons kind rest ih =>
    rw [List.foldlM_cons, Option.bind_eq_bind, Option.bind_eq_some_iff] at htake
    obtain ⟨mid, hfirst, hrest⟩ := htake
    rw [ih hrest, uptime_takeSeries hfirst]
    by_cases hkind : kind = .uptime
    · -- a second series of the uptime would store the same text again
      subst hkind
      cases pageUptime? page <;> simp
    · have hmem : .uptime ∈ kind :: rest ↔ .uptime ∈ rest := by simp [Ne.symm hkind]
      simp only [hmem, if_neg hkind]

/-! ## The task of a validator -/

/-- A host that was built had been situated, and has what its calls brought. -/
theorem pollHost_built {c : TaskContext} {host built : Host}
    (h : (pollHost c host).1 = .built built) :
    ∃ situated spent p, situate c host = .ok (.ok situated, spent) ∧
      populate c situated spent = .ok p ∧ p.outcome = .ok built := by
  unfold pollHost at h
  split at h
  · cases h
  · cases h
  · next situated spent hsituate =>
    split at h
    · cases h
    · next p hpopulate =>
      refine ⟨situated, spent, p, hsituate, hpopulate, ?_⟩
      dsimp only [endOf] at h
      split at h
      · next outcome houtcome =>
        cases h
        exact houtcome
      · cases h

/-- The only call of a validator is the scrape; a host is built only if that was answered. -/
theorem validator_scraped {c : TaskContext} {a : Address} (urls : a.HasUrls .validator) {m : Metrics}
    {host : Host} (h : (pollHost c (.fresh .validator a m)).1 = .built host) :
    ∃ url page, a.metricsUrl = .ok url ∧ c.page? url .validator = some page ∧
      host.metrics.uptime = (pageUptime? page).getD m.uptime := by
  obtain ⟨situated, spent, p, hsituate, hpopulate, houtcome⟩ := pollHost_built h
  obtain ⟨hcontinues, hmetrics, -⟩ := situate_ok hsituate
  obtain ⟨url, hurl⟩ := urls.metrics rfl
  have hrpc : situated.rpcUrl = none := hcontinues.rpcUrl
  have hscrape : situated.metricsUrl = some url := by
    rw [hcontinues.metricsUrl]
    simp [Host.fresh, Table.usesMetrics, hurl, Except.toOption]
  have htable : situated.table = .validator := hcontinues.table
  unfold populate callAll scrapeAll at hpopulate
  simp only [Polling.start, hrpc, hscrape, htable, bind, Except.bind] at hpopulate
  refine ⟨url, ?_⟩
  unfold TaskContext.page?
  cases hends : c.policy.run "metrics scrape"
      (c.gateways.scrape url (Table.validator.scraped.filterMap (·.seriesSpec?))) with
  | died =>
    rw [hends] at hpopulate
    cases hpopulate
  | returned elapsed result =>
    rw [hends] at hpopulate
    cases result with
    | error e =>
      cases hpopulate
      cases houtcome
    | ok page =>
      refine ⟨page, hurl, rfl, ?_⟩
      dsimp only [Polling.attempt] at hpopulate
      cases htaken : Table.validator.scraped.foldlM (takeSeries page c.now) situated with
      | none =>
        rw [htaken] at hpopulate
        cases hpopulate
      | some taken =>
        rw [htaken] at hpopulate
        cases hpopulate
        cases houtcome
        rw [uptime_foldlM_takeSeries htaken, if_pos (by decide), hmetrics]
        rfl

/-- The scrape brings a sample of the uptime that is finite and not negative. -/
def TaskContext.BringsUptime (c : TaskContext) (a : Address) : Prop :=
  ∃ url page series, a.metricsUrl = .ok url ∧ c.page? url .validator = some page ∧
    page.get? "uptime" = some series ∧ series.value.CanCount

/-- A page gives a text of the uptime if it has a sample that counts, and the text is not empty. -/
theorem pageUptime?_getD_ne_empty_iff (page : Keyed Scraped) :
    (pageUptime? page).getD "" ≠ "" ↔
      ∃ series, page.get? "uptime" = some series ∧ series.value.CanCount := by
  unfold pageUptime?
  change ((page.get? "uptime").bind _).getD "" ≠ "" ↔ _
  cases page.get? "uptime" with
  | none => simp
  | some series =>
    have hcounts := series.value.toCounter?_isSome_iff
    cases hread : series.value.toCounter? with
    | none => simpa [hread] using hcounts
    | some seconds => simpa [hread, uptimeText_ne_empty] using hcounts

namespace Collector

variable {c : Collector} {s : Surroundings} {carried : Keyed Metrics} {addresses : List Address}
  {polled : Collected} {host : Host}

/-- A validator that starts without an uptime is up to date and has one afterwards exactly if
its scrape brings one. -/
theorem validator_uptime_iff {a : Address} {windows : RateWindows}
    (hstart : c.startingMetrics carried a = .ofWindows windows)
    (hbuilt : (c.ends s .validator carried a).host? = some host) :
    host.metrics.updated = true ∧ host.metrics.uptime ≠ "" ↔ (c.context s a).BringsUptime a := by
  have hcontinues := ends_host hbuilt
  have hends : TaskEnds _ .validator a _ (c.ends s .validator carried a) := c.ends_taskEnds a
  cases hend : c.ends s .validator carried a with
  | failed | died =>
    rw [hend] at hbuilt
    cases hbuilt
  | built built =>
    rw [hend] at hbuilt hends
    cases hbuilt
    cases hends with
    | built _ urls _ =>
      have hpoll : (pollHost (c.context s a)
          (.fresh .validator a (c.startingMetrics carried a))).1 = .built host := by
        rw [← hend]
        simp [ends, collectHost, Host.new_of_hasUrls urls]
      obtain ⟨url, page, hurl, hpage, huptime⟩ := validator_scraped urls hpoll
      rw [hstart] at huptime
      have hbrings : host.metrics.uptime ≠ "" ↔ (c.context s a).BringsUptime a := by
        rw [huptime]
        refine (pageUptime?_getD_ne_empty_iff page).trans ⟨?_, ?_⟩
        · rintro ⟨series, hseries, hcounts⟩
          exact ⟨url, page, series, hurl, hpage, hseries, hcounts⟩
        · rintro ⟨url', page', series, hurl', hpage', hseries, hcounts⟩
          cases hurl.symm.trans hurl'
          cases hpage.symm.trans hpage'
          exact ⟨series, hseries, hcounts⟩
      have htimely : host.metrics.Timely := by
        refine hcontinues.ingested.timely ?_
        rw [hstart]
        exact Metrics.timely_ofWindows windows
      exact (and_iff_right_of_imp htimely.resolve_left).trans hbrings

end Collector

theorem status_grade_validator (reference : Metrics) (tolerance : Tolerance) (host : Host) :
    (grade .validator reference tolerance host).status =
      if host.metrics.updated = true ∧ host.metrics.uptime ≠ "" then .green else .red := by
  unfold grade refreshProgress classify
  cases hupdated : host.metrics.updated <;> by_cases h : host.metrics.uptime = "" <;>
    simp [h, hupdated]

/-- In every report a validator is green exactly if its scrape in this cycle brought an uptime
that is finite and not negative, and otherwise red. -/
theorem validator_green_iff_uptime {c : Controller} {m : Monitor} (hreachable : m.fleet.Reachable c)
    {w : World} {during : FleetState → FleetState} {report : CycleReport}
    (hreport : (m.run c w during).2 = .ok report) :
    ∀ validators, report.tables.validator = some validators → ∀ host ∈ validators.hosts,
      (host.status = .green ↔
        (c.collector.context (w.surroundings .validator) host.address).BringsUptime host.address) ∧
      (host.status = .green ∨ host.status = .red) := by
  intro validators hvalidators host hhost
  obtain ⟨next, counts, hwork⟩ := Monitor.work_of_report hreport
  obtain ⟨-, best, -, -, -, -, hgraded⟩ := Controller.work_report hwork
  obtain ⟨polled, hpolled, hmap⟩ := hgraded .validator validators hvalidators
  rw [hmap] at hhost
  obtain ⟨plain, hplain, rfl⟩ := List.mem_map.mp hhost
  have hmem : plain ∈ hostsOf (c.collector.collect (w.surroundings .validator) .validator
      (c.endpoints.get .validator) (m.fleet.carried.of .validator)) := by
    rw [hpolled]
    exact hplain
  have hbuilt := TaskEnd.host?_eq_some.mpr (Collector.ends_of_mem_hosts hmem).2
  -- nothing but windows was carried, so an uptime in this host has come with this cycle
  obtain ⟨windows, hstart⟩ := hreachable.starts_with_windows .validator plain.address
  have hverdict := Collector.validator_uptime_iff hstart hbuilt
  rw [grade_address, status_grade_validator, ← hverdict]
  split
  · next hup => exact ⟨⟨fun _ => hup, fun _ => rfl⟩, .inl rfl⟩
  · next hdown => exact ⟨⟨by rintro ⟨⟩, fun hup => absurd hup hdown⟩, .inr rfl⟩

def stakedController : Controller where
  collector := plainCollector
  endpoints := ⟨[loneEndpoint], [], [⟨"10.0.0.3", none, some 9184, none, none, false⟩]⟩
  tolerance := .default
  priceField := .current

def stakedWorld (uptime : Option Binary64) : World where
  gateways := fun _ _ => {
    rpc := fun _ _ => .after 1 (.ok (.text "1000"))
    scrape := fun _ _ => .after 1 (.ok (.ofEntries
      (uptime.toList.map (fun x => ("uptime", ⟨x, .empty⟩)) ++
        [("sui_network_peers", ⟨.ofNat 4, .empty⟩)])))
    locate := fun _ => .never
    resolve := fun _ => none }
  started := ⟨0⟩
  now := ⟨0⟩
  finished := ⟨0⟩
  cancelled := false

/-- The validator has just started; a zero may have a sign. -/
def startedWorld : World := stakedWorld (some Binary64.zero.neg)

def untoldWorld : World := stakedWorld none

def startedMonitor : Monitor :=
  ((⟨.new ⟨true, false, true⟩, .zero⟩ : Monitor).run stakedController startedWorld id).1

theorem startedMonitor_reachable : startedMonitor.fleet.Reachable stakedController :=
  Monitor.run_reachable (.new _) startedWorld fun _ h => h

def validatorStatuses (report : CycleReport) : Option (List Status) :=
  report.tables.validator.map fun t => t.hosts.map (·.status)

/-- A validator that goes on is green; one that does not tell its uptime any more is red. -/
theorem former_uptime_does_not_count :
    (startedMonitor.run stakedController startedWorld id).2.toOption.bind validatorStatuses =
      some [.green] ∧
    ∃ report, (startedMonitor.run stakedController untoldWorld id).2 = .ok report ∧
      validatorStatuses report = some [.red] ∧
      ∀ validators, report.tables.validator = some validators → ∀ host ∈ validators.hosts,
        ¬(stakedController.collector.context (untoldWorld.surroundings .validator)
          host.address).BringsUptime host.address := by
  refine ⟨by decide +kernel, ?_⟩
  have hstatuses : (startedMonitor.run stakedController untoldWorld id).2.toOption.bind
      validatorStatuses = some [.red] := by decide +kernel
  cases hreport : (startedMonitor.run stakedController untoldWorld id).2 with
  | error e =>
    rw [hreport] at hstatuses
    cases hstatuses
  | ok report =>
    rw [hreport] at hstatuses
    refine ⟨report, rfl, hstatuses, ?_⟩
    intro validators hvalidators host hhost hbrings
    have hred : host.status = .red := by
      have hmap : validators.hosts.map (·.status) = [.red] := by
        simpa [validatorStatuses, hvalidators, Except.toOption] using hstatuses
      exact List.mem_singleton.mp (hmap ▸ List.mem_map_of_mem hhost)
    have hverdict := validator_green_iff_uptime startedMonitor_reachable hreport validators
      hvalidators host hhost
    rw [hverdict.1.mpr hbrings] at hred
    cases hred

end FleetHealth.Fleet
