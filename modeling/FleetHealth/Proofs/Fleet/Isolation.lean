import FleetHealth.Proofs.Fleet.Accounting
import FleetHealth.Proofs.Fleet.Alongside
import FleetHealth.Proofs.Fleet.CycleResult
import FleetHealth.Proofs.Fleet.Leaders
import FleetHealth.Proofs.Metrics.Windowless

/-! # What a cycle takes from the cycles before

A cycle starts every host from carried windows and nothing else. What goes through the
windows shows in the windows of the report and in the verdicts on hosts held against the
reference, and nowhere else: neither the choice of the reference nor any other part of the
result depends on it.
-/
namespace FleetHealth.Fleet

open Chain Clock Exposition Gateway Net

/-! ## Tasks -/

def Host.windowless (h : Host) : Host := { h with metrics := h.metrics.windowless }

/-- Hosts that are equal but for their windows. -/
def Host.Like (h h' : Host) : Prop := h.windowless = h'.windowless

namespace Host.Like

variable {h h' : Host}

theorem metrics (like : h.Like h') : h.metrics.windowless = h'.metrics.windowless :=
  congrArg Host.metrics like

theorem note (like : h.Like h') (message : String) : (h.note message).Like (h'.note message) :=
  (congrArg (Host.note · message) like :)

theorem settle (like : h.Like h') {r r' : Ingest} (hr : r.windowless = r'.windowless) :
    Option.Rel Host.Like (h.settle? r) (h'.settle? r') := by
  have hverdict : r.verdict = r'.verdict := (congrArg Ingest.verdict hr :)
  have hmetrics : r.metrics.windowless = r'.metrics.windowless := (congrArg Ingest.metrics hr :)
  have hsettled : Host.Like { h with metrics := r.metrics } { h' with metrics := r'.metrics } := by
    change { h.windowless with metrics := r.metrics.windowless } =
      { h'.windowless with metrics := r'.metrics.windowless }
    rw [show h.windowless = h'.windowless from like, hmetrics]
  unfold settle?
  dsimp only
  rw [hverdict]
  split
  · exact .some hsettled
  · exact .some (hsettled.note _)
  · exact .none

theorem unseen : Unseen Host.Like where
  same like := ⟨(congrArg Host.table like).symm, (congrArg Host.address like).symm,
    (congrArg Host.rpcUrl like).symm, (congrArg Host.metricsUrl like).symm⟩
  note like message := like.note message
  ingest like kind value now := like.settle (Metrics.ingest_congr like.metrics kind value now)
  ingestScraped like kind series now :=
    like.settle (Metrics.ingestScraped_congr like.metrics kind series now)

end Host.Like

namespace TaskEnd

def windowless : TaskEnd → TaskEnd
  | .built host => .built host.windowless
  | .failed e carried => .failed e (carried.map fun kept => (kept.1, kept.2.windowless))
  | .died => .died

theorem windowless_built {h h' : Host} (like : h.Like h') :
    (built h).windowless = (built h').windowless := congrArg built like

/-- Metrics that are given back are fresh but for the windows. -/
theorem windowless_failed {h h' : Host} (like : h.Like h') (e : HostError) :
    (failed e (some h.carried)).windowless = (failed e (some h'.carried)).windowless := by
  have hkey : h.key = h'.key := (congrArg Host.key like :)
  have hfresh := Metrics.windowless_carryForward h.metrics h'.metrics
  simp only [windowless, Option.map_some, Host.carried, hkey, hfresh]

end TaskEnd

structure TaskContext.FindsAlike (c c' : TaskContext) : Prop extends c.AnswersAlike c' where
  geoMode : c'.geoMode = c.geoMode
  resolve : ∀ name, c'.gateways.resolve name = c.gateways.resolve name
  locate : ∀ ip, c'.policy.run "geolocation" (c'.gateways.locate ip) =
    c.policy.run "geolocation" (c.gateways.locate ip)

variable {c c' : TaskContext}

theorem situate_congr (hc : c.FindsAlike c') (h : Host) : situate c' h = situate c h := by
  have hlocate : ∀ effort, locate c' h effort = locate c h effort := by
    intro effort
    unfold locate Host.ip?
    simp only [hc.resolve, hc.locate]
  unfold situate
  rw [hc.geoMode]
  simp only [hlocate]

theorem situate_windowless (c : TaskContext) (h : Host) :
    situate c h.windowless = (situate c h).map fun r => (r.1.map Host.windowless, r.2) := by
  have happly : ∀ mode result,
      applyLocation mode h.windowless result = (applyLocation mode h result).map Host.windowless := by
    intro mode result
    cases result with
    | ok location => rfl
    | error e => cases mode <;> rfl
  have hlocate : locate c h.windowless .none = locate c h .none := rfl
  unfold situate
  split
  · rfl
  · rw [hlocate]
    cases locate c h .none with
    | error spent => rfl
    | ok r => simp only [Except.map, happly]

theorem pollHost_like (hc : c.FindsAlike c') {h h' : Host} (like : h.Like h') :
    (pollHost c h).1.windowless = (pollHost c' h').1.windowless ∧
      (pollHost c h).2 = (pollHost c' h').2 := by
  have hsituate : (situate c h).map (fun r => (r.1.map Host.windowless, r.2)) =
      (situate c' h').map fun r => (r.1.map Host.windowless, r.2) := by
    rw [situate_congr hc, ← situate_windowless, ← situate_windowless, like]
  unfold pollHost
  generalize situate c h = r at hsituate ⊢
  generalize situate c' h' = r' at hsituate ⊢
  -- Either both tasks die while they locate their hosts, or both give them up, or both go on.
  match r, r' with
  | .error _, .ok _ | .ok _, .error _ => cases hsituate
  | .error spent, .error spent' =>
    cases hsituate
    exact ⟨rfl, rfl⟩
  | .ok (.ok _, _), .ok (.error _, _) | .ok (.error _, _), .ok (.ok _, _) => cases hsituate
  | .ok (.error e, spent), .ok (.error e', spent') =>
    cases hsituate
    exact ⟨TaskEnd.windowless_failed like e, rfl⟩
  | .ok (.ok situated, spent), .ok (.ok situated', spent') =>
    have hpair := Except.ok.inj hsituate
    have hlike : situated.Like situated' := Except.ok.inj (congrArg Prod.fst hpair)
    have hspent : spent = spent' := congrArg Prod.snd hpair
    subst hspent
    have hpopulate : EndAlongside Host.Like .none (populate c situated spent)
        (populate c' situated' (Effort.none.add spent)) :=
      populate_alongside Host.Like.unseen hc.toAnswersAlike hlike spent
    rw [Effort.none_add] at hpopulate
    dsimp only
    generalize populate c situated spent = q at hpopulate ⊢
    generalize populate c' situated' spent = q' at hpopulate ⊢
    cases hpopulate with
    | died e => exact ⟨rfl, (Effort.none_add e).symm⟩
    | @went p p' both =>
      refine ⟨?_, (both.effort.trans (Effort.none_add _)).symm⟩
      dsimp only
      rcases both.outcome Host.Like.unseen with ⟨e, he, he'⟩ | ⟨hok, hok'⟩
      · rw [he, he']
        exact TaskEnd.windowless_failed both.host e
      · rw [hok, hok']
        exact TaskEnd.windowless_built both.host

def TaskResult.windowless (r : TaskResult) : TaskResult := { r with ends := r.ends.windowless }

/-- The task of an address is the same whatever is in the windows it starts with. -/
theorem collectHost_windowless {m m' : Metrics} (h : m.windowless = m'.windowless)
    (hc : c.FindsAlike c') (table : Table) (a : Address) :
    (collectHost c table a m).windowless = (collectHost c' table a m').windowless := by
  have hnew : (Host.new table a m).map Host.windowless = (Host.new table a m').map Host.windowless := by
    unfold Host.new
    cases wanted table.usesRpc a.rpcUrl with
    | error e => rfl
    | ok rpcUrl =>
      cases wanted table.usesMetrics a.metricsUrl with
      | error e => rfl
      | ok metricsUrl =>
        have hhost : Host.Like ⟨table, a, rpcUrl, metricsUrl, .grey, none, m, []⟩
            ⟨table, a, rpcUrl, metricsUrl, .grey, none, m', []⟩ :=
          (congrArg (Host.mk table a rpcUrl metricsUrl .grey none · []) h :)
        exact (congrArg Except.ok hhost :)
  unfold collectHost
  generalize Host.new table a m = one at hnew ⊢
  generalize Host.new table a m' = other at hnew ⊢
  match one, other with
  | .error _, .ok _ | .ok _, .error _ => cases hnew
  | .error e, .error e' =>
    cases hnew
    rfl
  | .ok host, .ok host' =>
    obtain ⟨hends, heffort⟩ := pollHost_like hc (Except.ok.inj hnew : host.Like host')
    simp only [TaskResult.windowless, hends, heffort]

/-! ## Collections -/

inductive Alike : Except NoHosts Collected → Except NoHosts Collected → Prop
  | failed {e e' : NoHosts} (table : e.table = e'.table) (errors : e.errors = e'.errors) :
      Alike (.error e) (.error e')
  | polled {a b : Collected} (hosts : a.hosts.map Host.windowless = b.hosts.map Host.windowless)
      (errors : a.errors = b.errors) : Alike (.ok a) (.ok b)

theorem arrivals_windowless (results : List TaskResult) :
    (arrivals results).map TaskResult.windowless = arrivals (results.map TaskResult.windowless) :=
  List.map_mergeSort fun _ _ _ _ => rfl

theorem gather_windowless (results : List TaskResult) :
    (gather results).hosts.map Host.windowless =
        (gather (results.map TaskResult.windowless)).hosts ∧
      (gather results).errors = (gather (results.map TaskResult.windowless)).errors := by
  have hhost : ∀ r : TaskResult, r.ends.host?.map Host.windowless = r.windowless.ends.host? := by
    rintro ⟨a, ends, effort⟩
    cases ends <;> rfl
  have hfailure : ∀ r : TaskResult, r.windowless.ends.failure? = r.ends.failure? := by
    rintro ⟨a, ends, effort⟩
    cases ends <;> rfl
  have hdied : ∀ r : TaskResult, diedError? r.windowless = diedError? r := by
    rintro ⟨a, ends, effort⟩
    cases ends <;> rfl
  constructor
  · rw [gather_hosts, gather_hosts, ← arrivals_windowless, List.map_filterMap, List.filterMap_map]
    exact List.filterMap_congr fun r _ => hhost r
  · rw [gather_errors, gather_errors, ← arrivals_windowless, List.filterMap_map, List.filterMap_map]
    simp only [Function.comp_def, hfailure, hdied]

theorem conclude_alike {one other : List TaskResult}
    (h : one.map TaskResult.windowless = other.map TaskResult.windowless) (table : Table) :
    Alike (conclude table (gather one)) (conclude table (gather other)) := by
  have hhosts : (gather one).hosts.map Host.windowless = (gather other).hosts.map Host.windowless := by
    rw [(gather_windowless one).1, h, (gather_windowless other).1]
  have herrors : (gather one).errors = (gather other).errors := by
    rw [(gather_windowless one).2, h, (gather_windowless other).2]
  have hempty : (gather one).hosts.isEmpty = (gather other).hosts.isEmpty := by
    rw [← List.isEmpty_map, hhosts, List.isEmpty_map]
  unfold conclude
  rw [hempty]
  split
  · exact .failed rfl herrors
  · exact .polled hhosts herrors

/-- Everything carried has gone over from an earlier cycle. -/
def Carried.Forwarded (carried : Carried) : Prop :=
  ∀ table, ∀ e ∈ (carried.of table).entries, ∃ m : Metrics, e.2 = m.carryForward

theorem startingMetrics_windowless {carried : Carried} (h : carried.Forwarded) (c : Collector)
    (table : Table) (a : Address) :
    (c.startingMetrics (carried.of table) a).windowless = (Metrics.new 1).windowless := by
  rcases c.startingMetrics_cases (carried.of table) a with hnew | hmem
  · rw [hnew]
    rfl
  · obtain ⟨before, hforwarded⟩ := h table _ hmem
    rw [show c.startingMetrics (carried.of table) a = before.carryForward from hforwarded]
    rfl

/-- Two cycles that poll the same tables and addresses, measure by the same rules and find the
same answers at the same times. -/
structure SameCycle (m m' : Monitor) (c c' : Controller) (w w' : World) : Prop where
  active : m'.fleet.active = m.fleet.active
  endpoints : c'.endpoints = c.endpoints
  tolerance : c'.tolerance = c.tolerance
  priceField : c'.priceField = c.priceField
  started : w'.started = w.started
  finished : w'.finished = w.finished
  finds : ∀ table a, (c.collector.context (w.surroundings table) a).FindsAlike
    (c'.collector.context (w'.surroundings table) a)

theorem SameCycle.collections {m m' : Monitor} {c c' : Controller} {w w' : World}
    (same : SameCycle m m' c c' w w') (h : m.fleet.carried.Forwarded) (h' : m'.fleet.carried.Forwarded)
    (table : Table) :
    Alike (c.collections w m.fleet.carried table) (c'.collections w' m'.fleet.carried table) := by
  refine conclude_alike ?_ table
  unfold Collector.tasks
  rw [same.endpoints, List.map_map, List.map_map]
  refine List.map_congr_left fun a _ => collectHost_windowless ?_ (same.finds table a) table a
  rw [startingMetrics_windowless h, startingMetrics_windowless h']

/-! ## Reports -/

/-- The host without its windows, and without its verdict if that is about rates. -/
def Host.withoutRates (table : Table) (h : Host) : Host :=
  { h.windowless with status := if table = .validator then h.status else .grey }

def TableReport.withoutRates (r : TableReport) : TableReport :=
  { r with hosts := r.hosts.map (Host.withoutRates r.table) }

def CycleReport.withoutRates (r : CycleReport) : CycleReport :=
  { r with tables := .build fun table => (r.tables.get table).map TableReport.withoutRates }

namespace Controller

variable {c : Controller} {w : World} {active : TableSet} {collected collected' : Collections}

end Controller

/-- The result of a cycle depends on the controller and the world only as far as cycles can be
the same. -/
theorem SameCycle.resultOn {m m' : Monitor} {c c' : Controller} {w w' : World}
    (same : SameCycle m m' c c' w w') (active : TableSet) (collected : Collections) :
    c'.resultOn w' active collected = c.resultOn w active collected := by
  have hvisits : ∀ table, c'.Visits active table ↔ c.Visits active table := by
    intro table
    unfold Controller.Visits
    rw [same.endpoints]
  unfold Controller.resultOn Controller.reportOn Controller.outcomeOn
  simp only [hvisits, same.tolerance, same.priceField, same.started, same.finished]

end FleetHealth.Fleet
