import FleetHealth.Proofs.Fleet.CarryOver
import FleetHealth.Proofs.Fleet.Survival

/-! # Windows over many cycles

Tables are switched on and off between cycles, and every cycle may meet another world. As
long as no task dies, the windows carried for an address hold the samples of all cycles
that polled its table since it was last switched off, each once and in order.
-/
namespace FleetHealth.Fleet

open Clock Gateway Net

inductive Call where
  | switch (table : Table) (on : Bool)
  | cycle (w : World)

/-- A monitor in the course of its calls, with the worlds in which each table was polled
since it was last switched off. -/
structure Course where
  monitor : Monitor
  visits : Table → List World

namespace Course

def begin (active : TableSet) (telemetry : Telemetry) : Course := ⟨⟨.new active, telemetry⟩, fun _ => []⟩

def step (c : Controller) (x : Course) : Call → Course
  | .switch table on => {
      monitor := { x.monitor with fleet := x.monitor.fleet.setActive table on }
      visits := fun other => if table = other ∧ on = false then [] else x.visits other }
  | .cycle w => {
      monitor := (x.monitor.run c w id).1
      visits := fun table =>
        if x.monitor.polls c w table then x.visits table ++ [w] else x.visits table }

/-- The call returns, and no task of a table that it polls dies. -/
def Alive (c : Controller) (x : Course) : Call → Prop
  | .switch _ _ => True
  | .cycle w => x.monitor.Returns c w ∧ ∀ table, x.monitor.polls c w table = true →
      ∀ r ∈ c.collector.tasks (w.surroundings table) table (c.endpoints.get table)
        (x.monitor.fleet.carried.of table), r.ends ≠ .died

end Course

/-- The second course comes from the first by calls that return and in which no task dies. -/
inductive Ran (c : Controller) (start : Course) : Course → Prop
  | start : Ran c start start
  | call {x : Course} (before : Ran c start x) (call : Call) (alive : x.Alive c call) :
      Ran c start (x.step c call)

def Controller.samples (c : Controller) (table : Table) (a : Address) (worlds : List World) :
    List RateSample :=
  worlds.flatMap fun w => (c.collector.context (w.surroundings table) a).samples table a

/-- The windows carried for an address have been fed with the samples of all visits. -/
structure Follows (c : Controller) (table : Table) (a : Address) (x : Course) : Prop where
  tidy : x.monitor.fleet.Tidy
  windows : (c.collector.startingMetrics (x.monitor.fleet.carried.of table) a).windows =
    (RateWindows.new c.collector.window).feed (c.samples table a (x.visits table))
  present : x.visits table ≠ [] → ((x.monitor.fleet.carried.of table).get? a.key).isSome = true

theorem startingMetrics_some {c : Collector} {carried : Keyed Metrics} {a : Address} {m : Metrics}
    (h : carried.get? a.key = some m) : c.startingMetrics carried a = m := by
  rw [Collector.startingMetrics, h, Option.getD_some]

theorem startingMetrics_empty (c : Collector) (a : Address) : c.startingMetrics .empty a = .new c.window :=
  rfl

variable {c : Controller} {table : Table} {a : Address}

theorem Follows.switch {x : Course} (h : Follows c table a x) (switched : Table) (on : Bool) :
    Follows c table a (x.step c (.switch switched on)) := by
  refine ⟨h.tidy.setActive switched on, ?_, ?_⟩
  all_goals
    dsimp only [Course.step]
    rw [FleetState.setActive_carried]
    split
  · rw [startingMetrics_empty]
    rfl
  · exact h.windows
  · exact fun hvisited => absurd rfl hvisited
  · exact h.present

theorem Follows.cycle {x : Course} (h : Follows c table a x)
    (ha : a ∈ distinctAddresses (c.endpoints.get table)) (urls : a.HasUrls table) (w : World)
    (alive : x.Alive c (.cycle w)) : Follows c table a (x.step c (.cycle w)) := by
  have hcarried := Monitor.run_carried h.tidy alive.1 table
  by_cases hpolls : x.monitor.polls c w table = true
  · have hends : c.collector.ends (w.surroundings table) table (x.monitor.fleet.carried.of table) a
        ≠ .died := alive.2 table hpolls _ (List.mem_map.mpr ⟨a, ha, rfl⟩)
    obtain ⟨kept, hkept, hwindows⟩ := Collector.handedOn_key ha urls hends
    rw [if_pos hpolls] at hcarried
    have hvisits : (x.step c (.cycle w)).visits table = x.visits table ++ [w] := if_pos hpolls
    have hget : ((x.step c (.cycle w)).monitor.fleet.carried.of table).get? a.key = some kept :=
      (congrArg (·.get? a.key) hcarried).trans hkept
    refine ⟨Monitor.tidy_run h.tidy alive.1, ?_, fun _ => by rw [hget]; rfl⟩
    have hsamples : c.samples table a (x.visits table ++ [w]) = c.samples table a (x.visits table)
        ++ (c.collector.context (w.surroundings table) a).samples table a := by
      simp [Controller.samples]
    rw [startingMetrics_some hget, hvisits, hsamples, hwindows, h.windows, RateWindows.feed_append]
  · rw [if_neg hpolls] at hcarried
    have hvisits : (x.step c (.cycle w)).visits table = x.visits table := if_neg hpolls
    refine ⟨Monitor.tidy_run h.tidy alive.1, ?_, ?_⟩
    · rw [hvisits]
      exact (congrArg (fun m => (c.collector.startingMetrics m a).windows) hcarried).trans h.windows
    · rw [hvisits]
      exact fun hvisited => (congrArg (fun m => (m.get? a.key).isSome) hcarried).trans (h.present hvisited)

theorem Ran.follows {start x : Course} (h : Ran c start x)
    (ha : a ∈ distinctAddresses (c.endpoints.get table)) (urls : a.HasUrls table)
    (hstart : Follows c table a start) : Follows c table a x := by
  induction h with
  | start => exact hstart
  | call _ call alive ih =>
    cases call with
    | switch switched on => exact ih.switch switched on
    | cycle w => exact ih.cycle ha urls w alive

def loneController : Controller where
  collector := plainCollector
  endpoints := ⟨[loneEndpoint], [], []⟩
  tolerance := .default
  priceField := .current

def loneWorld (transactions : Option String) : World where
  gateways := fun _ _ => {
    rpc := fun _ method => match method, transactions with
      | .totalTransactionBlocks, some n => .after 1 (.ok (.text n))
      | .latestCheckpoint, some _ => .after 1 (.ok (.text "5"))
      | _, _ => .never
    scrape := fun _ _ => .never
    locate := fun _ => .never
    resolve := fun _ => none }
  started := ⟨0⟩
  now := ⟨0⟩
  finished := ⟨0⟩
  cancelled := false

end FleetHealth.Fleet
