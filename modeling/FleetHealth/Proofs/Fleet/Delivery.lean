import FleetHealth.Proofs.Fleet.Accounting
import FleetHealth.Proofs.Fleet.CycleResult
import FleetHealth.Proofs.Fleet.Leaders

/-! # The order of delivery

Tasks deliver their results in some order, and a table collects the same hosts in any of
them. What depends on the order is which of several leaders becomes the reference. So the
results of a cycle agree in all but what they take from the reference beyond its progress:
its address, the rate of its transactions, its snapshot and its epoch. A snapshot on which a
cycle overflows is one of these.
-/
namespace FleetHealth.Fleet

open Chain Clock Gateway Net

/-! ## Collections -/

def gatherIn (order results : List TaskResult) : Collected :=
  let delivered := order.foldl Collected.add ⟨[], [], .empty⟩
  { delivered with errors := delivered.errors ++ results.filterMap diedError? }

/-- Can the addresses of a table give this collection, in some order of delivery? -/
def Collector.Delivers (c : Collector) (s : Surroundings) (table : Table)
    (addresses : List Address) (carried : Keyed Metrics) (result : Except NoHosts Collected) : Prop :=
  ∃ order : List TaskResult, order.Perm (c.tasks s table addresses carried) ∧
    result = conclude table (gatherIn order (c.tasks s table addresses carried))

/-- Tasks that deliver as they finish do so in some order. -/
theorem Collector.delivers_collect (c : Collector) (s : Surroundings) (table : Table)
    (addresses : List Address) (carried : Keyed Metrics) :
    c.Delivers s table addresses carried (c.collect s table addresses carried) :=
  ⟨arrivals _, arrivals_perm _, rfl⟩

/-- The same addresses in some order, repetitions aside. -/
def SameAddresses (xs ys : List Address) : Prop := (distinctAddresses xs).Perm (distinctAddresses ys)

theorem freshAddresses_of_nodup {seen : List String} {addresses : List Address}
    (h : (addresses.map Address.key).Nodup) (hseen : ∀ a ∈ addresses, a.key ∉ seen) :
    freshAddresses seen addresses = addresses := by
  induction addresses generalizing seen with
  | nil => rfl
  | cons first rest ih =>
    have hfirst := List.nodup_cons.mp h
    rw [freshAddresses, if_neg (hseen first List.mem_cons_self), ih hfirst.2]
    intro a ha hmem
    rcases List.mem_cons.mp hmem with hkey | hmem
    · exact hfirst.1 (List.mem_map.mpr ⟨a, ha, hkey⟩)
    · exact hseen a (List.mem_cons_of_mem _ ha) hmem

namespace SameAddresses

variable {xs ys : List Address}

theorem refl (xs : List Address) : SameAddresses xs xs := List.Perm.refl _

/-- Addresses with keys of their own may be listed in any order. -/
theorem of_perm (h : xs.Perm ys) (hkeys : (xs.map Address.key).Nodup) : SameAddresses xs ys := by
  have hkeys' : (ys.map Address.key).Nodup := (h.map Address.key).nodup_iff.mp hkeys
  unfold SameAddresses distinctAddresses
  rwa [freshAddresses_of_nodup hkeys (by simp), freshAddresses_of_nodup hkeys' (by simp)]

theorem eq_nil_iff (h : SameAddresses xs ys) : xs = [] ↔ ys = [] := by
  have hlength : (distinctAddresses xs).length = (distinctAddresses ys).length :=
    List.Perm.length_eq h
  rw [← distinctAddresses_eq_nil_iff, ← @distinctAddresses_eq_nil_iff ys,
    ← List.length_eq_zero_iff, hlength, List.length_eq_zero_iff]

end SameAddresses

inductive Rearranged : Except NoHosts Collected → Except NoHosts Collected → Prop
  | failed {e e' : NoHosts} (errors : e.errors.Perm e'.errors) : Rearranged (.error e) (.error e')
  | polled {a b : Collected} (hosts : a.hosts.Perm b.hosts) (errors : a.errors.Perm b.errors) :
      Rearranged (.ok a) (.ok b)

theorem gatherIn_perm {order order' results results' : List TaskResult} (h : order.Perm order')
    (hresults : results.Perm results') :
    (gatherIn order results).hosts.Perm (gatherIn order' results').hosts ∧
      (gatherIn order results).errors.Perm (gatherIn order' results').errors := by
  unfold gatherIn
  dsimp only
  rw [(foldl_add order _).1, (foldl_add order' _).1, foldl_add_errors, foldl_add_errors]
  exact ⟨(h.filterMap _).append_left _,
    ((h.filterMap _).append_left _).append (hresults.filterMap _)⟩

theorem conclude_rearranged {a b : Collected} (hhosts : a.hosts.Perm b.hosts)
    (herrors : a.errors.Perm b.errors) (table : Table) :
    Rearranged (conclude table a) (conclude table b) := by
  have hempty : a.hosts.isEmpty = b.hosts.isEmpty := by
    rw [Bool.eq_iff_iff, List.isEmpty_iff_length_eq_zero, List.isEmpty_iff_length_eq_zero,
      hhosts.length_eq]
  unfold conclude
  rw [hempty]
  split
  · exact .failed herrors
  · exact .polled hhosts herrors

theorem Collector.Delivers.rearranged {c : Collector} {s : Surroundings} {table : Table}
    {xs ys : List Address} {carried : Keyed Metrics} {one other : Except NoHosts Collected}
    (h : SameAddresses xs ys) (hone : c.Delivers s table xs carried one)
    (hother : c.Delivers s table ys carried other) : Rearranged one other := by
  obtain ⟨order, horder, rfl⟩ := hone
  obtain ⟨order', horder', rfl⟩ := hother
  have htasks : (c.tasks s table xs carried).Perm (c.tasks s table ys carried) := List.Perm.map _ h
  obtain ⟨hhosts, herrors⟩ := gatherIn_perm ((horder.trans htasks).trans horder'.symm) htasks
  exact conclude_rearranged hhosts herrors table

def Controller.collectionsIn (c : Controller) (w : World) (carried : Carried)
    (order : List TaskResult → List TaskResult) : Collections := fun table =>
  let results := c.collector.tasks (w.surroundings table) table (c.endpoints.get table)
    (carried.of table)
  conclude table (gatherIn (order results) results)

/-! ## Results of cycles -/

/-- What a cycle can come to, in some order of delivery in each table. -/
inductive Monitor.Ends (m : Monitor) (c : Controller) (w : World) :
    Except CycleFault CycleReport → Prop
  | refused {e : CycleError} (refuses : m.fleet.take c.endpoints.rpc = .error e) :
      m.Ends c w (.error (.failed e))
  | worked {taken : Taken} {fleet : FleetState} {collected : Collections}
      (takes : m.fleet.take c.endpoints.rpc = .ok (taken, fleet))
      (delivered : ∀ table, c.collector.Delivers (w.surroundings table) table
        (c.endpoints.get table) (m.fleet.carried.of table) (collected table)) :
      m.Ends c w (c.resultOn w m.fleet.active collected)

theorem Monitor.ends_run (m : Monitor) (c : Controller) (w : World)
    (during : FleetState → FleetState) : m.Ends c w (m.run c w during).2 := by
  cases htake : m.fleet.take c.endpoints.rpc with
  | error e =>
    rw [(run_refused htake during).1]
    exact .refused htake
  | ok r =>
    obtain ⟨taken, fleet⟩ := r
    rw [run_result htake]
    exact .worked htake fun table => c.collector.delivers_collect ..

theorem Monitor.ends_in {m : Monitor} {c : Controller} {w : World} {taken : Taken}
    {fleet : FleetState} (takes : m.fleet.take c.endpoints.rpc = .ok (taken, fleet))
    {order : List TaskResult → List TaskResult} (horder : ∀ results, (order results).Perm results) :
    m.Ends c w (c.resultOn w m.fleet.active (c.collectionsIn w m.fleet.carried order)) :=
  .worked takes fun _ => ⟨order _, horder _, rfl⟩

inductive ResultRel (R : CycleReport → CycleReport → Prop) :
    Except CycleFault CycleReport → Except CycleFault CycleReport → Prop
  | fault (e : CycleFault) : ResultRel R (.error e) (.error e)
  | reported {a b : CycleReport} (reports : R a b) : ResultRel R (.ok a) (.ok b)

def SnapshotsDiffer (hosts : List Host) : Prop :=
  ∃ one ∈ hosts, ∃ other ∈ hosts, one.metrics.systemState ≠ other.metrics.systemState

/-- Related results, unless a cycle has overflown on the snapshot of one of several leaders that
do not have the same. -/
def RelatedOnLeaders (leaders : List Host) (R : CycleReport → CycleReport → Prop)
    (one other : Except CycleFault CycleReport) : Prop :=
  ResultRel R one other ∨
    (one = .error .overflow ∨ other = .error .overflow) ∧ SnapshotsDiffer leaders

namespace CycleReport

def hostsIn (r : CycleReport) (table : Table) : List Host :=
  ((r.tables.get table).map (·.hosts)).getD []

def leaders (r : CycleReport) : List Host := Fleet.leaders (r.hostsIn .rpc)

def SameVerdicts (a b : CycleReport) : Prop :=
  ∀ table, (a.hostsIn table).Perm (b.hostsIn table)

structure SameStatistics (a b : CycleReport) : Prop where
  gas : a.gas = b.gas
  referencePrice : a.referencePrice = b.referencePrice
  validatorReports : a.validatorReports = b.validatorReports

structure SameFindings (a b : CycleReport) : Prop where
  reference : a.reference = b.reference
  verdicts : a.SameVerdicts b
  statistics : a.SameStatistics b
  epoch : a.epoch = b.epoch

/-- One report has one host for its reference, the other report another. They are the same as
far as the two hosts are. -/
structure Differ (a b : CycleReport) (one other : Host) : Prop where
  leads : one ∈ a.leaders ∧ other ∈ b.leaders
  references : a.reference = one.address ∧ b.reference = other.address
  ties : one.metrics.Ties other.metrics
  verdicts : one.metrics.transactionRate = other.metrics.transactionRate → a.SameVerdicts b
  statistics : one.metrics.systemState = other.metrics.systemState → a.SameStatistics b
  epoch : one.metrics.epoch = other.metrics.epoch → a.epoch = b.epoch

/-- Reports of the same hosts. The verdicts of those that have no reference are the same, the
references lead, and with a single leader everything is the same. -/
structure SameUpToTies (a b : CycleReport) : Prop where
  hosts : ∀ table, ((a.hostsIn table).map Host.unclassified).Perm
    ((b.hostsIn table).map Host.unclassified)
  validators : (a.hostsIn .validator).Perm (b.hostsIn .validator)
  leaders : (a.leaders.map Host.unclassified).Perm (b.leaders.map Host.unclassified)
  references : ∃ one other, a.Differ b one other
  sole : a.leaders.length = 1 → a.SameFindings b

end CycleReport

theorem Rearranged.hostsOf {one other : Except NoHosts Collected} (h : Rearranged one other) :
    (hostsOf one).Perm (Fleet.hostsOf other) := by
  cases h with
  | failed errors => exact .refl _
  | polled hosts errors => exact hosts

def Statistics.figures (stats : Statistics) :
    Option GasStatistics × Option Nat × List ValidatorReport :=
  (stats.gas, stats.referencePrice, stats.reports)

theorem statistics_congr {one other : Host}
    (h : one.metrics.systemState = other.metrics.systemState) (field : PriceField) :
    (statistics one field).map (·.figures) = (statistics other field).map (·.figures) := by
  unfold statistics
  rw [h]
  cases other.metrics.systemState with
  | none => simp only [Option.map_some, Statistics.figures]
  | some state => rfl

namespace Controller

variable {c : Controller} {w : World} {active : TableSet} {collected collected' : Collections}
  {stats stats' : Statistics}

theorem hostsIn_reportOn (reference : Host) (table : Table) :
    (c.reportOn w active collected reference stats).hostsIn table =
      if c.Visits active table then
        (hostsOf (collected table)).map (grade table reference.metrics c.tolerance)
      else [] := by
  rw [CycleReport.hostsIn, reportOn_tables, outcomeOn]
  split
  · cases collected table <;> rfl
  · rfl

theorem leaders_reportOn {polled : Collected} (hpolled : collected .rpc = .ok polled)
    (reference : Host) : (c.reportOn w active collected reference stats).leaders =
      (leaders polled.hosts).map (grade .rpc reference.metrics c.tolerance) := by
  rw [CycleReport.leaders, hostsIn_reportOn, if_pos (.inl rfl), hpolled]
  exact leaders_map (isEligible_grade .rpc reference.metrics c.tolerance)
    (ties_grade .rpc reference.metrics c.tolerance) _

/-- Hosts that grading sends to the same are the same in both reports. -/
theorem hostsIn_perm {β : Type} (h : ∀ table, Rearranged (collected table) (collected' table))
    {one other : Host} (view : Host → β) {table : Table}
    (hview : ∀ host, view (grade table one.metrics c.tolerance host) =
      view (grade table other.metrics c.tolerance host)) :
    (((c.reportOn w active collected one stats).hostsIn table).map view).Perm
      (((c.reportOn w active collected' other stats').hostsIn table).map view) := by
  rw [hostsIn_reportOn, hostsIn_reportOn]
  split
  · have hsame : view ∘ grade table one.metrics c.tolerance =
        view ∘ grade table other.metrics c.tolerance := funext hview
    rw [List.map_map, List.map_map, hsame]
    exact (h table).hostsOf.map _
  · exact .refl _

theorem reportOn_differ (h : ∀ table, Rearranged (collected table) (collected' table))
    {polled polled' : Collected} (hpolled : collected .rpc = .ok polled)
    (hpolled' : collected' .rpc = .ok polled') {one other : Host}
    (hone : one ∈ leaders polled.hosts) (hother : other ∈ leaders polled'.hosts)
    (hstats : statistics one c.priceField = some stats)
    (hstats' : statistics other c.priceField = some stats')
    (hties : one.metrics.Ties other.metrics) :
    (c.reportOn w active collected one stats).Differ (c.reportOn w active collected' other stats')
      (grade .rpc one.metrics c.tolerance one) (grade .rpc other.metrics c.tolerance other) := by
  have hrate : ∀ host : Host, (grade .rpc host.metrics c.tolerance host).metrics.transactionRate =
      host.metrics.transactionRate :=
    fun host => grade_frame (fun _ _ => rfl) (fun _ _ => rfl) ..
  have hstate : ∀ host : Host, (grade .rpc host.metrics c.tolerance host).metrics.systemState =
      host.metrics.systemState :=
    fun host => grade_frame (fun _ _ => rfl) (fun _ _ => rfl) ..
  have hepoch : ∀ host : Host, (grade .rpc host.metrics c.tolerance host).metrics.epoch =
      host.metrics.epoch :=
    fun host => grade_frame (fun _ _ => rfl) (fun _ _ => rfl) ..
  refine ⟨⟨?_, ?_⟩, ⟨(grade_address ..).symm, (grade_address ..).symm⟩, ?_, ?_, ?_, ?_⟩
  · rw [leaders_reportOn hpolled]
    exact List.mem_map_of_mem hone
  · rw [leaders_reportOn hpolled']
    exact List.mem_map_of_mem hother
  · have hgraded := ties_grade .rpc one.metrics c.tolerance one
    have hgraded' := ties_grade .rpc other.metrics c.tolerance other
    constructor
    · rw [hgraded.checkpoint, hgraded'.checkpoint, hties.checkpoint]
    · rw [hgraded.transactions, hgraded'.transactions, hties.transactions]
  · intro hsame table
    rw [hrate, hrate] at hsame
    have hperm : (((c.reportOn w active collected one stats).hostsIn table).map id).Perm
        (((c.reportOn w active collected' other stats').hostsIn table).map id) :=
      hostsIn_perm h id (grade_congr hties hsame table c.tolerance)
    rwa [List.map_id, List.map_id] at hperm
  · intro hsame
    rw [hstate, hstate] at hsame
    have hfigures := statistics_congr hsame c.priceField
    rw [hstats, hstats', Option.map_some, Option.map_some, Option.some.injEq] at hfigures
    exact ⟨congrArg (·.1) hfigures, congrArg (·.2.1) hfigures, congrArg (·.2.2) hfigures⟩
  · intro hsame
    rw [hepoch, hepoch] at hsame
    exact hsame

theorem reportOn_sameUpToTies (h : ∀ table, Rearranged (collected table) (collected' table))
    {polled polled' : Collected} (hpolled : collected .rpc = .ok polled)
    (hpolled' : collected' .rpc = .ok polled') {one other : Host}
    (hone : one ∈ leaders polled.hosts) (hother : other ∈ leaders polled'.hosts)
    (hstats : statistics one c.priceField = some stats)
    (hstats' : statistics other c.priceField = some stats') :
    (c.reportOn w active collected one stats).SameUpToTies (c.reportOn w active collected' other stats') := by
  have hleaders : (leaders polled.hosts).Perm (leaders polled'.hosts) := by
    have hrpc := (h .rpc).hostsOf
    rw [hpolled, hpolled'] at hrpc
    exact leaders_perm hrpc
  have hties : one.metrics.Ties other.metrics :=
    leaders_tie hone (hleaders.symm.subset hother)
  have hdiffer : (c.reportOn w active collected one stats).Differ (c.reportOn w active collected' other stats')
      _ _ := reportOn_differ h hpolled hpolled' hone hother hstats hstats' hties
  refine ⟨fun table => hostsIn_perm h Host.unclassified (unclassified_grade_congr hties table c.tolerance),
    ?_, ?_, ⟨_, _, hdiffer⟩, ?_⟩
  · have hperm : (((c.reportOn w active collected one stats).hostsIn .validator).map id).Perm
        (((c.reportOn w active collected' other stats').hostsIn .validator).map id) :=
      hostsIn_perm h id (grade_validator one.metrics other.metrics c.tolerance)
    rwa [List.map_id, List.map_id] at hperm
  · have hview : Host.unclassified ∘ grade .rpc one.metrics c.tolerance =
        Host.unclassified ∘ grade .rpc other.metrics c.tolerance :=
      funext (unclassified_grade_congr hties .rpc c.tolerance)
    rw [leaders_reportOn hpolled, leaders_reportOn hpolled', List.map_map, List.map_map, hview]
    exact hleaders.map _
  · intro hsole
    rw [leaders_reportOn hpolled, List.length_map] at hsole
    obtain ⟨leader, hleader⟩ := List.length_eq_one_iff.mp hsole
    -- Both references are the only leader.
    have hsame : one = other := by
      have hmem := hleaders.symm.subset hother
      rw [hleader, List.mem_singleton] at hone hmem
      rw [hone, hmem]
    subst hsame
    exact ⟨rfl, hdiffer.verdicts rfl, hdiffer.statistics rfl, hdiffer.epoch rfl⟩

theorem resultOn_rearranged (h : ∀ table, Rearranged (collected table) (collected' table)) :
    RelatedOnLeaders (leaders (hostsOf (collected .rpc))) CycleReport.SameUpToTies
      (c.resultOn w active collected) (c.resultOn w active collected') := by
  have hrpc := h .rpc
  unfold resultOn
  generalize hpolled : collected .rpc = one at hrpc ⊢
  generalize hpolled' : collected' .rpc = other at hrpc ⊢
  cases hrpc with
  | @failed e e' errors =>
    dsimp only
    rw [errors.length_eq]
    exact .inl (.fault _)
  | @polled a b hosts errors =>
    have hleaders := leaders_perm hosts
    dsimp only [hostsOf]
    cases hone : bestHost a.hosts with
    | none =>
      rw [bestHost_eq_none_iff.mp hone] at hleaders
      rw [bestHost_eq_none_iff.mpr hleaders.nil_eq.symm, hosts.length_eq]
      exact .inl (.fault _)
    | some best =>
      cases hother : bestHost b.hosts with
      | none =>
        rw [bestHost_eq_none_iff.mp hother] at hleaders
        rw [bestHost_eq_none_iff.mpr hleaders.eq_nil] at hone
        cases hone
      | some best' =>
        have hlead := bestHost_leads hone
        have hlead' := bestHost_leads hother
        -- what only one of the two overflows on is not the snapshot of both
        have hdiffer : (statistics best.2 c.priceField).map (·.figures) ≠
            (statistics best'.2 c.priceField).map (·.figures) → SnapshotsDiffer (leaders a.hosts) :=
          fun hfigures => ⟨best.2, hlead, best'.2, hleaders.symm.subset hlead',
            fun hsame => hfigures (statistics_congr hsame c.priceField)⟩
        dsimp only
        cases hstats : statistics best.2 c.priceField with
        | none =>
          rw [hstats] at hdiffer
          cases hstats' : statistics best'.2 c.priceField with
          | none => exact .inl (.fault _)
          | some stats' =>
            rw [hstats'] at hdiffer
            exact .inr ⟨.inl rfl, hdiffer (by simp)⟩
        | some stats =>
          rw [hstats] at hdiffer
          cases hstats' : statistics best'.2 c.priceField with
          | none =>
            rw [hstats'] at hdiffer
            exact .inr ⟨.inr rfl, hdiffer (by simp)⟩
          | some stats' =>
            exact .inl (.reported
              (reportOn_sameUpToTies h hpolled hpolled' hlead hlead' hstats hstats'))

/-- A result depends on the endpoints only through the collections. -/
theorem resultOn_endpoints {endpoints : PerTable (List Address)}
    (h : ∀ table, SameAddresses (c.endpoints.get table) (endpoints.get table)) :
    { c with endpoints := endpoints }.resultOn w active collected = c.resultOn w active collected := by
  have houtcome : ∀ reference table,
      { c with endpoints := endpoints }.outcomeOn active reference collected table =
        c.outcomeOn active reference collected table := by
    intro reference table
    have hvisits : Visits { c with endpoints := endpoints } active table ↔ c.Visits active table :=
      or_congr_right (and_congr_right fun _ => not_congr (h table).eq_nil_iff.symm)
    unfold outcomeOn
    simp only [hvisits]
  unfold resultOn reportOn
  simp only [houtcome]

end Controller

def leadersOf (c : Controller) (w : World) (m : Monitor) : List Host :=
  leaders (hostsOf (c.collectionsIn w m.fleet.carried id .rpc))

theorem SnapshotsDiffer.perm {xs ys : List Host} (h : xs.Perm ys) (hdiffer : SnapshotsDiffer xs) :
    SnapshotsDiffer ys := by
  obtain ⟨one, hone, other, hother, hne⟩ := hdiffer
  exact ⟨one, h.subset hone, other, h.subset hother, hne⟩

theorem Monitor.Ends.sameUpToTies {m : Monitor} {c : Controller} {w : World}
    {endpoints : PerTable (List Address)}
    (h : ∀ table, SameAddresses (c.endpoints.get table) (endpoints.get table))
    {one other : Except CycleFault CycleReport} (hone : m.Ends c w one)
    (hother : m.Ends { c with endpoints := endpoints } w other) :
    RelatedOnLeaders (leadersOf c w m) CycleReport.SameUpToTies one other := by
  have htake : m.fleet.take endpoints.rpc = m.fleet.take c.endpoints.rpc := by
    unfold FleetState.take
    simp only [show endpoints.rpc = [] ↔ c.endpoints.rpc = [] from (h .rpc).eq_nil_iff.symm]
  -- Whether a cycle begins is the same for both.
  cases hone with
  | refused refuses =>
    cases hother with
    | refused refuses' =>
      rw [htake, refuses] at refuses'
      cases refuses'
      exact .inl (.fault _)
    | worked takes' delivered' =>
      rw [htake, refuses] at takes'
      cases takes'
  | @worked _ _ collected takes delivered =>
    cases hother with
    | refused refuses' =>
      rw [htake, takes] at refuses'
      cases refuses'
    | worked takes' delivered' =>
      have hleaders : (leaders (hostsOf (collected .rpc))).Perm (leadersOf c w m) :=
        leaders_perm ((delivered .rpc).rearranged (.refl _) ⟨_, .refl _, rfl⟩).hostsOf
      rw [Controller.resultOn_endpoints h]
      refine (Controller.resultOn_rearranged fun table =>
        (delivered table).rearranged (h table) (delivered' table)).imp_right ?_
      exact fun hover => ⟨hover.1, hover.2.perm hleaders⟩

/-- The order in which tasks deliver their results decides nothing but which of several
leaders is the reference. Neither does the order of the endpoints. -/
theorem delivery_order_decides_only_ties {m : Monitor} {c : Controller} {w : World}
    {endpoints : PerTable (List Address)}
    (h : ∀ table, SameAddresses (c.endpoints.get table) (endpoints.get table)) :
    (∀ one other, m.Ends c w one → m.Ends { c with endpoints := endpoints } w other →
        RelatedOnLeaders (leadersOf c w m) CycleReport.SameUpToTies one other) ∧
      ∀ during during', RelatedOnLeaders (leadersOf c w m) CycleReport.SameUpToTies
        (m.run c w during).2 (m.run { c with endpoints := endpoints } w during').2 :=
  ⟨fun _ _ hone hother => hone.sameUpToTies h hother,
    fun during during' => (m.ends_run c w during).sameUpToTies h (m.ends_run _ w during')⟩

/-! ## Two endpoints -/

def twinEndpoint : Address := ⟨"10.0.0.2", some 9000, none, none, none, false⟩

def twinController : Controller where
  collector := plainCollector
  endpoints := ⟨[loneEndpoint, twinEndpoint], [], []⟩
  tolerance := .default
  priceField := .current

def twinMonitor : Monitor where
  fleet := {
    active := ⟨true, false, false⟩
    lastReport := none
    lastError := none
    carried := ⟨some (.ofEntries [(loneEndpoint.key,
      .ofWindows ((RateWindows.new 2).feed [(.transactions, 100)]))]), none, none⟩ }
  telemetry := .zero

def twinSnapshot : Json :=
  .object [("epoch", .text "3"), ("referenceGasPrice", .text "750"),
    ("epochStartTimestampMs", .text "0"), ("epochDurationMs", .text "1000")]

/-- Both endpoints count, and only the first has a snapshot. -/
def twinWorld (counts : Address → String) : World := .answering fun _ a method =>
  match method with
  | .totalTransactionBlocks | .latestCheckpoint => .after 1 (.ok (.text (counts a)))
  | .systemState => if a = loneEndpoint then .after 1 (.ok twinSnapshot) else .never
  | .validatorsApy => .never

def twinResult (counts : Address → String) (order : List TaskResult → List TaskResult) :
    Except CycleFault CycleReport :=
  twinController.resultOn (twinWorld counts) twinMonitor.fleet.active
    (twinController.collectionsIn (twinWorld counts) twinMonitor.fleet.carried order)

theorem twinMonitor_ends (counts : Address → String) (order : List TaskResult → List TaskResult)
    (horder : ∀ results, (order results).Perm results) :
    twinMonitor.Ends twinController (twinWorld counts) (twinResult counts order) :=
  Monitor.ends_in rfl horder

def firstAhead (a : Address) : String := if a = loneEndpoint then "200" else "9"

/-- The endpoint that is ahead is the reference in any order of delivery, and wherever it is
listed. -/
theorem endpoint_ahead_is_reference :
    ∃ a b r, twinResult firstAhead id = .ok a ∧ twinResult firstAhead List.reverse = .ok b ∧
      (twinMonitor.run { twinController with endpoints := ⟨[twinEndpoint, loneEndpoint], [], []⟩ }
        (twinWorld firstAhead) id).2 = .ok r ∧
      a.leaders.length = 1 ∧ a.SameFindings b ∧ a.SameFindings r := by
  have hreordered : ∀ table, SameAddresses (twinController.endpoints.get table)
      (PerTable.get ⟨[twinEndpoint, loneEndpoint], [], []⟩ table) := by
    intro table
    refine .of_perm ?_ ?_ <;> cases table <;> decide
  have hone := twinMonitor_ends firstAhead id .refl
  have hdelivered := (delivery_order_decides_only_ties
    fun table => .refl (twinController.endpoints.get table)).1 _ _ hone
      (twinMonitor_ends firstAhead List.reverse List.reverse_perm)
  have hlisted := (delivery_order_decides_only_ties hreordered).1 _ _ hone
    (twinMonitor.ends_run _ (twinWorld firstAhead) id)
  have hsole : (twinResult firstAhead id).toOption.map (·.leaders.length) = some 1 := by
    decide +kernel
  have halone : ¬SnapshotsDiffer (leadersOf twinController (twinWorld firstAhead) twinMonitor) := by
    have hlength : (leadersOf twinController (twinWorld firstAhead) twinMonitor).length = 1 := by
      decide +kernel
    obtain ⟨leader, hleader⟩ := List.length_eq_one_iff.mp hlength
    rintro ⟨one, hone, other, hother, hdiffer⟩
    rw [hleader, List.mem_singleton] at hone hother
    rw [hone, hother] at hdiffer
    exact hdiffer rfl
  replace hdelivered := hdelivered.resolve_right fun hover => halone hover.2
  replace hlisted := hlisted.resolve_right fun hover => halone hover.2
  generalize twinResult firstAhead id = one at hdelivered hlisted hsole ⊢
  generalize twinResult firstAhead List.reverse = other at hdelivered ⊢
  generalize (twinMonitor.run _ (twinWorld firstAhead) id).2 = listed at hlisted ⊢
  cases hdelivered with
  | fault e => cases hsole
  | @reported a b reports =>
    cases hlisted with
    | @reported _ r reports' =>
      have hlength : a.leaders.length = 1 := Option.some.inj hsole
      exact ⟨a, b, r, rfl, rfl, rfl, hlength, reports.sole hlength, reports'.sole hlength⟩

/-- Do all orders of delivery that lead to reports lead to related ones? -/
def AnyOrder (R : CycleReport → CycleReport → Prop) : Prop :=
  ∀ (m : Monitor) (c : Controller) (w : World) (a b : CycleReport),
    m.Ends c w (.ok a) → m.Ends c w (.ok b) → R a b

theorem twinResult_tied : (twinResult (fun _ => "200") id).toOption.isSome ∧
    (twinResult (fun _ => "200") List.reverse).toOption.isSome := by decide +kernel

/-- What differs between two reports of the tied endpoints depends on the order. -/
theorem not_anyOrder {β : Type} {R : CycleReport → CycleReport → Prop} (read : CycleReport → β)
    (hread : ∀ a b, R a b → read a = read b)
    (hdiffer : (twinResult (fun _ => "200") id).toOption.map read ≠
      (twinResult (fun _ => "200") List.reverse).toOption.map read) : ¬AnyOrder R := by
  intro hany
  have hends := twinMonitor_ends (fun _ => "200") id .refl
  have hends' := twinMonitor_ends (fun _ => "200") List.reverse List.reverse_perm
  obtain ⟨hone, hother⟩ := twinResult_tied
  apply hdiffer
  generalize twinResult (fun _ => "200") id = one at hends hone ⊢
  generalize twinResult (fun _ => "200") List.reverse = other at hends' hother ⊢
  match one, other with
  | .error _, _ => cases hone
  | .ok _, .error _ => cases hother
  | .ok a, .ok b => exact congrArg some (hread _ _ (hany _ _ _ a b hends hends'))

/-- Among tied endpoints the order chooses the reference, and with it verdicts, statistics and
the epoch. -/
theorem order_chooses_among_tied :
    ¬AnyOrder CycleReport.SameFindings ∧
      ¬AnyOrder (fun a b => a.reference = b.reference) ∧ ¬AnyOrder CycleReport.SameVerdicts ∧
      ¬AnyOrder CycleReport.SameStatistics ∧ ¬AnyOrder (fun a b => a.epoch = b.epoch) := by
  refine ⟨?_, ?_, ?_, ?_, ?_⟩
  · exact not_anyOrder (·.reference) (fun _ _ h => h.reference) (by decide +kernel)
  · exact not_anyOrder (·.reference) (fun _ _ h => h) (by decide +kernel)
  · exact not_anyOrder (fun r => (r.hostsIn .rpc).countP (·.status = .yellow))
      (fun _ _ h => (h .rpc).countP_eq _) (by decide +kernel)
  · exact not_anyOrder (·.referencePrice) (fun _ _ h => h.referencePrice)
      (by decide +kernel)
  · exact not_anyOrder (·.epoch) (fun _ _ h => h) (by decide +kernel)

end FleetHealth.Fleet
