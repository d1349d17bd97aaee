import FleetHealth.Proofs.Fleet.CarryOver

/-! # The result of a cycle

What a cycle reports depends on its tables only through what they collect: the reference
is the host of the reference table with the most progress, and the report is put together
from it and from the outcome of each table.
-/
namespace FleetHealth.Fleet

open Clock Gateway Net

abbrev Collections := Table → Except NoHosts Collected

namespace Controller

def collections (c : Controller) (w : World) (carried : Carried) : Collections := fun table =>
  c.collector.collect (w.surroundings table) table (c.endpoints.get table) (carried.of table)

/-- A cycle comes to the reference table always, and to another one if it is on and has
addresses. -/
def Visits (c : Controller) (active : TableSet) (table : Table) : Prop :=
  table = .rpc ∨ (active.get table = true ∧ c.endpoints.get table ≠ [])

instance (c : Controller) (active : TableSet) (table : Table) : Decidable (c.Visits active table) :=
  inferInstanceAs (Decidable (_ ∨ _))

def outcomeOn (c : Controller) (active : TableSet) (reference : Metrics) (collected : Collections)
    (table : Table) : TableOutcome :=
  if c.Visits active table then
    match collected table with
    | .ok polled => .collected table reference c.tolerance polled
    | .error e => .failed e
  else .skipped

def reportOn (c : Controller) (w : World) (active : TableSet) (collected : Collections)
    (reference : Host) (stats : Statistics) : CycleReport :=
  let outcome := c.outcomeOn active reference.metrics collected
  { startedAt := w.started
    finishedAt := w.finished
    reference := reference.address
    tables := .build fun table => (outcome table).report
    referencePrice := stats.referencePrice
    gas := stats.gas
    epoch := reference.metrics.epoch
    validatorReports := stats.reports
    warnings := (outcome .node).warnings ++ (outcome .validator).warnings ++ stats.warnings }

def resultOn (c : Controller) (w : World) (active : TableSet) (collected : Collections) :
    Except CycleFault CycleReport :=
  match collected .rpc with
  | .error e => .error (.failed (.referenceUnavailable (.noHosts e.errors.length)))
  | .ok polled =>
    match bestHost polled.hosts with
    | none => .error (.failed (.referenceUnavailable (.noProgress polled.hosts.length)))
    | some best =>
      match statistics best.2 c.priceField with
      | none => .error .overflow
      | some stats => .ok (c.reportOn w active collected best.2 stats)

variable {c : Controller} {w : World} {taken : Taken}

theorem reportOn_tables (active : TableSet) (collected : Collections) (reference : Host)
    (stats : Statistics) (table : Table) :
    (c.reportOn w active collected reference stats).tables.get table =
      (c.outcomeOn active reference.metrics collected table).report :=
  PerTable.get_build _ table

theorem dependent_eq (reference : Metrics) {table : Table} (htable : table ≠ .rpc) :
    c.dependent w taken reference table =
      c.outcomeOn taken.active reference (c.collections w taken.carried) table := by
  unfold dependent outcomeOn
  by_cases hvisits : taken.active.get table = true ∧ c.endpoints.get table ≠ []
  · have hpolled : c.Visits taken.active table := .inr hvisits
    rw [if_neg (by simp [hvisits]), if_pos hpolled]
    rfl
  · have hskipped : ¬c.Visits taken.active table := not_or.mpr ⟨htable, hvisits⟩
    rw [if_pos (by simpa [Classical.or_iff_not_imp_left] using hvisits), if_neg hskipped]

theorem work_result (c : Controller) (w : World) (taken : Taken) :
    (c.work w taken).result = c.resultOn w taken.active (c.collections w taken.carried) := by
  unfold work resultOn
  change _ = match c.collector.collect (w.surroundings .rpc) .rpc c.endpoints.rpc
    (taken.carried.of .rpc) with | .error _ => _ | .ok _ => _
  cases hcollect : c.collector.collect (w.surroundings .rpc) .rpc c.endpoints.rpc
      (taken.carried.of .rpc) with
  | error e => rfl
  | ok collected =>
    dsimp only
    cases hbest : bestHost collected.hosts with
    | none => rfl
    | some best =>
      have hrpc : TableOutcome.collected .rpc best.2.metrics c.tolerance collected =
          c.outcomeOn taken.active best.2.metrics (c.collections w taken.carried) .rpc := by
        have hcollections : c.collections w taken.carried .rpc = .ok collected := hcollect
        rw [outcomeOn, if_pos (.inl rfl), hcollections]
      dsimp only [complete]
      rw [hrpc, dependent_eq best.2.metrics (by decide), dependent_eq best.2.metrics (by decide)]
      cases statistics best.2 c.priceField <;> rfl

end Controller

/-- A cycle that takes anything out of the state has the result of its collections. -/
theorem Monitor.run_result {m : Monitor} {c : Controller} {w : World} {taken : Taken}
    {fleet : FleetState} (h : m.fleet.take c.endpoints.rpc = .ok (taken, fleet))
    (during : FleetState → FleetState) :
    (m.run c w during).2 =
      c.resultOn w m.fleet.active (c.collections w m.fleet.carried) := by
  rw [(run_worked h during).1, Controller.work_result]
  obtain ⟨rfl, -, -⟩ := FleetState.take_ok h
  rfl

/-- A world without clocks in which remote calls alone are answered. -/
def World.answering (rpc : Table → Address → RpcMethod → Reply Json) : World where
  gateways := fun table a => {
    rpc := fun _ method => rpc table a method
    scrape := fun _ _ => .never
    locate := fun _ => .never
    resolve := fun _ => none }
  started := ⟨0⟩
  now := ⟨0⟩
  finished := ⟨0⟩
  cancelled := false

end FleetHealth.Fleet
