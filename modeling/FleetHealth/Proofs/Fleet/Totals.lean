import FleetHealth.Proofs.Fleet.CycleLog
import FleetHealth.Proofs.Fleet.History
import FleetHealth.Proofs.Number.Words

/-! # Totals over many cycles

Every collection adds its hosts, and the addresses that gave none, to the totals of a log. The
counters have all of this but what the reference table of a failed cycle collected, which
nobody counts.
-/
namespace FleetHealth.Fleet

open Clock Gateway Net Number

/-! ## Counting up -/

theorem wrapCounter_add (m n : Nat) : wrapCounter (wrapCounter m + n) = wrapCounter (m + n) :=
  Nat.mod_add_mod ..

namespace Counts

def zero : Counts := ⟨0, 0⟩

def sum (counts : List Counts) : Counts := counts.foldr add zero

theorem add_zero (counts : Counts) : counts.add zero = counts := rfl

theorem zero_add (counts : Counts) : zero.add counts = counts := by
  simp [add, zero]

theorem sum_append (first later : List Counts) : sum (first ++ later) = (sum first).add (sum later) := by
  induction first with
  | nil => simp [sum, zero, add]
  | cons counts rest ih =>
    simp only [List.cons_append, sum, List.foldr_cons] at ih ⊢
    rw [ih]
    simp [add, Nat.add_assoc]

end Counts

def total (read : PastCycle → Counts) (log : List PastCycle) : Counts := .sum (log.map read)

theorem total_concat (read : PastCycle → Counts) (log : List PastCycle) (e : PastCycle) :
    total read (log ++ [e]) = (total read log).add (read e) := by
  rw [total, List.map_append, Counts.sum_append]
  rfl

/-! ## What a cycle has collected -/

def countsOf (collected : Except NoHosts Collected) : Counts :=
  ⟨(hostsOf collected).length, (errorsOf collected).length⟩

namespace Controller

variable {c : Controller} {w : World}

def tableCounts (c : Controller) (w : World) (carried : Carried) (table : Table) : Counts :=
  let built := hostsOf (c.collections w carried table)
  ⟨built.length, keyCount (c.endpoints.get table) - built.length⟩

theorem tableCounts_eq (carried : Carried) (table : Table) :
    c.tableCounts w carried table = countsOf (c.collections w carried table) := by
  have htotal : _ + (errorsOf (c.collections w carried table)).length = _ :=
    c.collector.length_hosts_add_errors (w.surroundings table) table (carried.of table)
      (c.endpoints.get table)
  simp only [tableCounts, countsOf, Counts.mk.injEq, true_and]
  exact Nat.sub_eq_of_eq_add' htotal.symm

theorem tableCounts_of_endpoints_nil {carried : Carried} {table : Table}
    (h : c.endpoints.get table = []) : c.tableCounts w carried table = .zero := by
  have htotal := c.collector.length_hosts_add_errors (w.surroundings table) table (carried.of table) []
  have hnone : keyCount [] = 0 := rfl
  rw [tableCounts_eq, collections, h, countsOf, Counts.zero, Counts.mk.injEq]
  constructor <;> omega

theorem counts_outcomeOn (active : TableSet) (carried : Carried) (reference : Metrics) (table : Table) :
    (c.outcomeOn active reference (c.collections w carried) table).counts =
      if c.Visits active table then c.tableCounts w carried table else .zero := by
  rw [tableCounts_eq]
  by_cases hvisits : c.Visits active table
  · rw [if_pos hvisits]
    cases hcollected : c.collections w carried table with
    | ok polled =>
      rw [outcomeOn_ok hvisits hcollected]
      rfl
    | error e =>
      rw [outcomeOn_error hvisits hcollected]
      have hnone : hostsOf (.error e) = [] := rfl
      simp [TableOutcome.failed, countsOf, hnone, errorsOf]
  · rw [if_neg hvisits, outcomeOn, if_neg hvisits]
    rfl

/-- A cycle with a reference counts what its tables have collected, any other cycle nothing. -/
theorem work_counts (taken : Taken) :
    (c.work w taken).counts = match (c.work w taken).result with
      | .error (.failed _) => .zero
      | .error .overflow | .ok _ => Counts.sum (Table.all.map fun table =>
          if c.Visits taken.active table then c.tableCounts w taken.carried table else .zero) := by
  unfold work
  cases hcollect : c.collector.collect (w.surroundings .rpc) .rpc c.endpoints.rpc
      (taken.carried.of .rpc) with
  | error e => rfl
  | ok collected =>
    dsimp only
    cases hbest : bestHost collected.hosts with
    | none => rfl
    | some best =>
      have hpolled : ∀ active, c.Visits active .rpc := fun _ => .inl rfl
      have hcollections : c.collections w taken.carried .rpc = .ok collected := hcollect
      have hsum : (((c.outcomeOn taken.active best.2.metrics (c.collections w taken.carried) .rpc).counts.add
          (c.outcomeOn taken.active best.2.metrics (c.collections w taken.carried) .node).counts).add
          (c.outcomeOn taken.active best.2.metrics (c.collections w taken.carried) .validator).counts) =
            Counts.sum (Table.all.map fun table => if c.Visits taken.active table
              then c.tableCounts w taken.carried table else .zero) := by
        simp only [counts_outcomeOn, Counts.sum, Table.all, List.map_cons, List.map_nil,
          List.foldr_cons, List.foldr_nil, Counts.add, Counts.zero, Nat.add_zero, Nat.add_assoc]
      dsimp only [complete]
      rw [← outcomeOn_ok (hpolled taken.active) hcollections,
        dependent_eq best.2.metrics (by decide), dependent_eq best.2.metrics (by decide), ← hsum]
      cases statistics best.2 c.priceField <;> rfl

end Controller

namespace PastCycle

def tableCounts (c : Controller) (e : PastCycle) (table : Table) : Counts :=
  if e.before.polls c e.world table then c.tableCounts e.world e.before.fleet.carried table else .zero

def counts (c : Controller) (e : PastCycle) : Counts := .sum (Table.all.map (e.tableCounts c))

/-- What the reference table has collected in a cycle that has failed. -/
def missed (c : Controller) (e : PastCycle) : Counts :=
  if e.failed c then e.tableCounts c .rpc else .zero

def counted (c : Controller) (e : PastCycle) : Counts :=
  if e.failed c then .zero else e.counts c

variable {c : Controller} {e : PastCycle}

theorem failed_eq (e : PastCycle) : e.failed c = hasFailed (e.before.run c e.world id).2 := by
  rw [failed, result, Monitor.run_result_during]

/-- A cycle that has failed has come to no table but the reference table. -/
theorem counts_eq (e : PastCycle) : e.counts c = (e.counted c).add (e.missed c) := by
  by_cases hfailed : e.failed c = true
  · rw [counted, missed, if_pos hfailed, if_pos hfailed, Counts.zero_add]
    rw [failed_eq] at hfailed
    -- to come to another table is to have a reference
    have hnone : ∀ table, table ≠ .rpc → e.tableCounts c table = .zero := by
      intro table htable
      refine if_neg fun hpolls => ?_
      rcases Monitor.report_of_polls hpolls htable with hover | ⟨report, hreport⟩
      · rw [hover] at hfailed
        cases hfailed
      · rw [hreport] at hfailed
        cases hfailed
    simp only [counts, Counts.sum, Table.all, List.map_cons, List.map_nil, List.foldr_cons,
      List.foldr_nil, hnone .node (by decide), hnone .validator (by decide), Counts.add_zero]
  · rw [counted, missed, if_neg hfailed, if_neg hfailed, Counts.add_zero]

/-- In a cycle with a reference, a table is come to if it is on. Without addresses it collects
nothing. -/
theorem tableCounts_of_take {taken : Taken} {fleet : FleetState}
    (htake : e.before.fleet.take c.endpoints.rpc = .ok (taken, fleet))
    (hfailed : hasFailed (e.before.run c e.world id).2 = false) (table : Table) :
    e.tableCounts c table = if c.Visits taken.active table
      then c.tableCounts e.world taken.carried table else .zero := by
  obtain ⟨rfl, -, hrpc⟩ := FleetState.take_ok htake
  have hpolls : e.before.polls c e.world table = e.before.fleet.active.get table := by
    unfold Monitor.polls
    cases hresult : (e.before.run c e.world id).2 with
    | ok report => rfl
    | error fault =>
      cases fault with
      | overflow => rfl
      | failed e =>
        rw [hresult] at hfailed
        cases hfailed
  rw [tableCounts, hpolls]
  by_cases hactive : e.before.fleet.active.get table = true
  · rw [if_pos hactive]
    by_cases hendpoints : c.endpoints.get table = []
    · rw [Controller.tableCounts_of_endpoints_nil hendpoints, ite_self]
    · rw [if_pos (.inr ⟨hactive, hendpoints⟩)]
  · have hother : table ≠ .rpc := fun htable => hactive (htable ▸ hrpc)
    have hskipped : ¬c.Visits e.before.fleet.active table :=
      not_or.mpr ⟨hother, fun hon => hactive hon.1⟩
    rw [if_neg hactive, if_neg hskipped]

theorem work_counts_eq {taken : Taken} {fleet : FleetState}
    (htake : e.before.fleet.take c.endpoints.rpc = .ok (taken, fleet)) :
    (c.work e.world taken).counts = e.counted c := by
  have hresult := (Monitor.run_worked (w := e.world) htake id).1
  have hsum : hasFailed (e.before.run c e.world id).2 = false →
      Counts.sum (Table.all.map fun table => if c.Visits taken.active table
        then c.tableCounts e.world taken.carried table else .zero) = e.counts c :=
    fun hfailed => congrArg Counts.sum (List.map_congr_left fun table _ =>
      (tableCounts_of_take htake hfailed table).symm)
  rw [hresult] at hsum
  rw [Controller.work_counts, counted, failed_eq, hresult]
  generalize (c.work e.world taken).result = result at hsum ⊢
  rcases result with (fault | _) | report
  · rfl
  · exact hsum rfl
  · exact hsum rfl

/-- The telemetry counts what a cycle has collected, and then the cycle itself. -/
theorem after_telemetry (hhosts : e.before.telemetry.hostsCollected ≤ counterMax)
    (hfailures : e.before.telemetry.hostFailures ≤ counterMax) :
    (e.after c).telemetry =
      (e.before.telemetry.count (e.counted c)).publish e.world.elapsed (e.result c) := by
  cases htake : e.before.fleet.take c.endpoints.rpc with
  | error fault =>
    have hresult : e.result c = .error (.failed fault) := (Monitor.run_refused htake e.during).1
    have hcounted : e.counted c = .zero := if_pos (by rw [failed, hresult]; rfl)
    -- nothing is added, but a counter must be in range to stay the same when it wraps
    have hsame : e.before.telemetry.count .zero = e.before.telemetry := by
      simp [Telemetry.count, Telemetry.addHosts, Telemetry.addFailures, Counts.zero,
        wrapCounter_of_le hhosts, wrapCounter_of_le hfailures]
    rw [hcounted, hsame, hresult]
    exact Monitor.telemetry_refused htake e.during
  | ok r =>
    have hresult : e.result c = (c.work e.world r.1).result := (Monitor.run_worked htake e.during).1
    rw [← work_counts_eq htake, hresult]
    exact Monitor.telemetry_worked htake e.during

end PastCycle

/-! ## The counters -/

/-- The counters after the cycles of a log. -/
structure Tallied (c : Controller) (log : List PastCycle) (t : Telemetry) : Prop where
  run : t.cyclesRun = wrapCounter (log.countP (·.succeeded c))
  failed : t.cyclesFailed = wrapCounter (log.countP (·.failed c))
  hosts : t.hostsCollected = wrapCounter (total (·.counted c) log).hosts
  failures : t.hostFailures = wrapCounter (total (·.counted c) log).failures

variable {c : Controller} {log : List PastCycle}

theorem Tallied.cycle {e : PastCycle} (h : Tallied c log e.before.telemetry) :
    Tallied c (log ++ [e]) (e.after c).telemetry := by
  have htotal := total_concat (·.counted c) log e
  have hisSome : (e.result c).toOption.isSome = e.succeeded c := rfl
  have hfailed : hasFailed (e.result c) = e.failed c := rfl
  rw [PastCycle.after_telemetry (h.hosts ▸ wrapCounter_le _) (h.failures ▸ wrapCounter_le _)]
  constructor
  · rw [Telemetry.publish_cyclesRun, hisSome, List.countP_append, List.countP_singleton]
    change (if _ then wrapCounter (e.before.telemetry.cyclesRun + 1) else e.before.telemetry.cyclesRun) = _
    cases e.succeeded c <;> simp [h.run, wrapCounter_add]
  · rw [Telemetry.publish_cyclesFailed, hfailed, List.countP_append, List.countP_singleton]
    change (if _ then wrapCounter (e.before.telemetry.cyclesFailed + 1)
      else e.before.telemetry.cyclesFailed) = _
    cases e.failed c <;> simp [h.failed, wrapCounter_add]
  · rw [Telemetry.publish_hostsCollected, htotal]
    change wrapCounter (e.before.telemetry.hostsCollected + (e.counted c).hosts) = _
    rw [h.hosts, wrapCounter_add]
    rfl
  · rw [Telemetry.publish_hostFailures, htotal]
    change wrapCounter (e.before.telemetry.hostFailures + (e.counted c).failures) = _
    rw [h.failures, wrapCounter_add]
    rfl

theorem Logged.tallied {fleet : FleetState} {m : Monitor} (h : Logged c ⟨fleet, .zero⟩ log m) :
    Tallied c log m.telemetry := by
  induction h with
  | start => exact ⟨rfl, rfl, rfl, rfl⟩
  | switched _ table on ih => exact ih
  | cycled _ w switches ih => exact Tallied.cycle (e := ⟨_, w, switches⟩) ih

/-- The counters account for all that was collected in so many cycles. -/
structure Telemetry.AccountsFor (t : Telemetry) (made : Counts) (cycles : Nat) : Prop where
  hosts : t.hostsCollected = wrapCounter made.hosts
  failures : t.hostFailures = wrapCounter made.failures
  cycles : wrapCounter (t.cyclesRun + t.cyclesFailed) = wrapCounter cycles

theorem total_counts (c : Controller) (log : List PastCycle) :
    total (·.counts c) log = (total (·.counted c) log).add (total (·.missed c) log) := by
  induction log with
  | nil => rfl
  | cons e rest ih =>
    simp only [total, List.map_cons, Counts.sum, List.foldr_cons] at ih ⊢
    rw [ih, PastCycle.counts_eq]
    simp only [Counts.add, Counts.mk.injEq]
    constructor <;> omega

/-- Adding up to the same counter, whatever comes before, is adding nothing to it. -/
theorem wrapCounter_eq_add_iff (m n : Nat) :
    wrapCounter m = wrapCounter (m + n) ↔ wrapCounter n = 0 := by
  unfold wrapCounter counterMax
  omega

/-- A cycle that returns has either succeeded or failed. -/
theorem countP_returned (log : List PastCycle) :
    log.countP (·.returned c) = log.countP (·.succeeded c) + log.countP (·.failed c) := by
  induction log with
  | nil => rfl
  | cons e rest ih =>
    have hone : (if e.returned c then 1 else 0) =
        (if e.succeeded c then 1 else 0) + if e.failed c then 1 else 0 := by
      unfold PastCycle.returned PastCycle.succeeded PastCycle.failed
      rcases e.result c with (_ | _) | _ <;> rfl
    rw [List.countP_cons, List.countP_cons, List.countP_cons, ih, hone]
    omega

/-- Every cycle that returns is counted. The counters of hosts and failures lack what the
reference table of each failed cycle has collected, and nothing else; so they account for
everything unless that shows in them. -/
theorem counters_lack_failed_cycles {fleet : FleetState} {m : Monitor}
    (h : Logged c ⟨fleet, .zero⟩ log m) :
    m.telemetry.cyclesRun = wrapCounter (log.countP (·.succeeded c)) ∧
      m.telemetry.cyclesFailed = wrapCounter (log.countP (·.failed c)) ∧
      (log.length ≤ counterMax →
        m.telemetry.cyclesRun + m.telemetry.cyclesFailed = log.countP (·.returned c)) ∧
      wrapCounter (m.telemetry.hostsCollected + (total (·.missed c) log).hosts) =
        wrapCounter (total (·.counts c) log).hosts ∧
      wrapCounter (m.telemetry.hostFailures + (total (·.missed c) log).failures) =
        wrapCounter (total (·.counts c) log).failures ∧
      (m.telemetry.AccountsFor (total (·.counts c) log) (log.countP (·.returned c)) ↔
        wrapCounter (total (·.missed c) log).hosts = 0 ∧
          wrapCounter (total (·.missed c) log).failures = 0) := by
  have htallied := h.tallied
  have hcycles := countP_returned (c := c) log
  have hreturned : log.countP (·.returned c) ≤ log.length := List.countP_le_length
  have htotal := total_counts c log
  have hrun := htallied.run
  have hfailed := htallied.failed
  refine ⟨hrun, hfailed, ?_, ?_, ?_, ?_⟩
  · intro hfit
    rw [hrun, hfailed, wrapCounter_of_le (by omega), wrapCounter_of_le (by omega), ← hcycles]
  · rw [htallied.hosts, wrapCounter_add, htotal]
    rfl
  · rw [htallied.failures, wrapCounter_add, htotal]
    rfl
  · have hhosts := wrapCounter_eq_add_iff (total (·.counted c) log).hosts (total (·.missed c) log).hosts
    have hfailures := wrapCounter_eq_add_iff (total (·.counted c) log).failures
      (total (·.missed c) log).failures
    rw [← hhosts, ← hfailures, ← htallied.hosts, ← htallied.failures, htotal]
    constructor
    · exact fun haccounts => ⟨haccounts.hosts, haccounts.failures⟩
    · rintro ⟨hhosts, hfailures⟩
      refine ⟨hhosts, hfailures, ?_⟩
      rw [hrun, hfailed, hcycles, wrapCounter_add, Nat.add_comm, wrapCounter_add, Nat.add_comm]

/-! ## A silent endpoint and a stalled one -/

/-- The endpoint counts transactions but has no checkpoint, so it cannot be the reference. -/
def stalledWorld : World := .answering fun _ _ method =>
  match method with
  | .totalTransactionBlocks => .after 1 (.ok (.text "10"))
  | _ => .never

def silentCycle : PastCycle := ⟨⟨.new ⟨true, false, false⟩, .zero⟩, loneWorld none, []⟩

def stalledCycle : PastCycle := ⟨silentCycle.after loneController, stalledWorld, []⟩

def soundCycle : PastCycle := ⟨stalledCycle.after loneController, loneWorld (some "10"), []⟩

theorem stalledCycle_logged : Logged loneController ⟨.new ⟨true, false, false⟩, .zero⟩
    [silentCycle, stalledCycle] (stalledCycle.after loneController) :=
  (Logged.start.cycled (loneWorld none) []).cycled stalledWorld []

theorem soundCycle_logged : Logged loneController ⟨.new ⟨true, false, false⟩, .zero⟩
    [silentCycle, stalledCycle, soundCycle] (soundCycle.after loneController) :=
  stalledCycle_logged.cycled (loneWorld (some "10")) []

/-- After a silent cycle, a stalled one and one with a report, two hosts were built, of which one
is counted, and the address that failed is not. -/
theorem stalled_host_goes_uncounted :
    (soundCycle.after loneController).telemetry.hostsCollected = 1 ∧
      (soundCycle.after loneController).telemetry.hostFailures = 0 ∧
      total (·.missed loneController) [silentCycle, stalledCycle, soundCycle] = ⟨1, 1⟩ ∧
      wrapCounter ((soundCycle.after loneController).telemetry.hostsCollected + 1) = wrapCounter
        (total (·.counts loneController) [silentCycle, stalledCycle, soundCycle]).hosts ∧
      (soundCycle.after loneController).telemetry.cyclesRun
        + (soundCycle.after loneController).telemetry.cyclesFailed = 3 := by
  have hmissed : total (·.missed loneController) [silentCycle, stalledCycle, soundCycle] = ⟨1, 1⟩ := by
    decide +kernel
  obtain ⟨-, -, hcycles, hhosts, -, -⟩ := counters_lack_failed_cycles soundCycle_logged
  have hreturned : [silentCycle, stalledCycle, soundCycle].countP (·.returned loneController) = 3 := by
    decide +kernel
  refine ⟨by decide +kernel, by decide +kernel, hmissed, ?_, hreturned ▸ hcycles (by decide)⟩
  rw [hmissed] at hhosts
  exact hhosts

/-- The counters do not account for every cycle, even if all return. -/
theorem failed_cycles_go_uncounted :
    ¬∀ (c : Controller) (fleet : FleetState) (log : List PastCycle) (m : Monitor),
      Logged c ⟨fleet, .zero⟩ log m → (∀ e ∈ log, e.returned c = true) →
        m.telemetry.AccountsFor (total (·.counts c) log) log.length := by
  intro hall
  have hreturned : ∀ e ∈ [silentCycle, stalledCycle], e.returned loneController = true := by
    decide +kernel
  have haccounts := hall _ _ _ _ stalledCycle_logged hreturned
  have hbuilt : (total (·.counts loneController) [silentCycle, stalledCycle]).hosts = 1 := by
    decide +kernel
  have hcounted : (stalledCycle.after loneController).telemetry.hostsCollected = 0 := by
    decide +kernel
  have hhosts := haccounts.hosts
  rw [hbuilt, hcounted] at hhosts
  cases hhosts

end FleetHealth.Fleet
