import FleetHealth.Proofs.Fleet.CarryOver

/-! # States that the fleet can reach

Whatever others do to the state while cycles run, all that is carried has been handed on by
tasks of earlier cycles. So a property that every task passes on to what it leaves is one of
everything carried.
-/
namespace FleetHealth.Fleet

open Clock Gateway Net

/-- States of the fleet under switches and cycles, whose parts may interleave in any way:
the work of a cycle may be settled in a state that others have changed meanwhile. -/
inductive FleetState.Reachable (c : Controller) : FleetState → Prop
  | new (active : TableSet) : Reachable c (.new active)
  | setActive {s : FleetState} (before : Reachable c s) (table : Table) (on : Bool) :
      Reachable c (s.setActive table on)
  | take {s rest : FleetState} {taken : Taken} (before : Reachable c s)
      (took : s.take c.endpoints.rpc = .ok (taken, rest)) : Reachable c rest
  | settle {s earlier rest : FleetState} {taken : Taken} (before : Reachable c s)
      (begun : Reachable c earlier) (took : earlier.take c.endpoints.rpc = .ok (taken, rest))
      (w : World) : Reachable c (s.settle (c.work w taken))
  | publish {s : FleetState} (before : Reachable c s) (result : Except CycleFault CycleReport) :
      Reachable c (s.publish result)

/-- A cycle leads from a reachable state to another, if what happens meanwhile does. -/
theorem Monitor.run_reachable {m : Monitor} {c : Controller} (h : m.fleet.Reachable c) (w : World)
    {during : FleetState → FleetState} (hduring : ∀ s, s.Reachable c → (during s).Reachable c) :
    (m.run c w during).1.fleet.Reachable c := by
  cases htake : m.fleet.take c.endpoints.rpc with
  | error e =>
    rw [(run_refused htake during).2]
    exact hduring _ (h.publish _)
  | ok r =>
    rw [(run_worked htake during).2]
    exact ((hduring _ (h.take htake)).settle h htake w).publish _

def Carried.Holds (p : Table → String → Metrics → Prop) (carried : Carried) : Prop :=
  ∀ table, ∀ e ∈ (carried.of table).entries, p table e.1 e.2

namespace Carried.Holds

variable {p : Table → String → Metrics → Prop} {s : FleetState}

theorem none : Carried.none.Holds p := by
  intro table e he
  cases table <;> cases he

theorem setActive (h : s.carried.Holds p) (table : Table) (on : Bool) :
    (s.setActive table on).carried.Holds p := by
  intro other e he
  rw [FleetState.setActive_carried] at he
  split at he
  · cases he
  · exact h other e he

theorem restore {back : Carried} (h : s.carried.Holds p) (hback : back.Holds p) :
    (s.restore back).carried.Holds p := by
  intro table e he
  unfold Carried.of FleetState.restore at he
  rw [PerTable.get_build] at he
  split at he
  · cases hget : back.get table with
    | none =>
      rw [hget] at he
      exact h table e he
    | some kept =>
      rw [hget] at he
      rcases Keyed.mem_insertAll he with he | he
      · exact h table e he
      · exact hback table e (by rwa [Carried.of, hget])
  · exact h table e he

theorem replace {next : Carried} (h : next.Holds p) : (s.replace next).carried.Holds p := by
  intro table e he
  rw [FleetState.replace_of] at he
  split at he
  · exact h table e he
  · cases he

end Carried.Holds

/-- Metrics that a task leaves have a property if what was carried before has it. -/
def Controller.PassesOn (c : Controller) (p : Table → String → Metrics → Prop) : Prop :=
  ∀ (w : World) (carried : Carried), carried.Holds p → ∀ table, ∀ a ∈ c.endpoints.get table,
    p table a.key (.ofWindows
      ((c.collector.startingMetrics (carried.of table) a).windows.feed
        ((c.collector.context (w.surroundings table) a).samples table a)))

namespace Controller.PassesOn

variable {c : Controller} {p : Table → String → Metrics → Prop}

theorem handsOn (h : c.PassesOn p) (w : World) {carried : Carried} (hcarried : carried.Holds p)
    (table : Table) : ∀ e ∈ (c.handsOn w carried table).entries, p table e.1 e.2 := by
  intro e he
  obtain ⟨a, ha, rfl⟩ := Collector.mem_handedOn he
  exact h w carried hcarried table a (mem_freshAddresses ha).1

theorem settle (h : c.PassesOn p) {s : FleetState} (hs : s.carried.Holds p) (w : World)
    {taken : Taken} (htaken : taken.carried.Holds p) :
    (s.settle (c.work w taken)).carried.Holds p := by
  cases hwork : c.work w taken with
  | failed reason back =>
    refine hs.restore fun table e he => ?_
    rw [Controller.work_failed hwork, Carried.of, PerTable.get_set] at he
    split at he
    · next htable =>
      subst htable
      exact h.handsOn w htaken .rpc e he
    · exact htaken table e he
  | overflow counts => exact hs
  | done report next counts =>
    refine Carried.Holds.replace fun table e he => ?_
    rw [Controller.work_done hwork] at he
    split at he
    · exact h.handsOn w htaken table e he
    · cases he

end Controller.PassesOn

/-- A property that tasks pass on is one of everything carried in a reachable state. -/
theorem FleetState.Reachable.carried_holds {c : Controller} {p : Table → String → Metrics → Prop}
    (hpasses : c.PassesOn p) {s : FleetState} (h : s.Reachable c) : s.carried.Holds p := by
  induction h with
  | new active => exact .none
  | setActive _ table on ih => exact ih.setActive table on
  | take _ took _ =>
    obtain ⟨-, rfl, -⟩ := take_ok took
    exact .none
  | settle _ _ took w ih ihbegun =>
    obtain ⟨rfl, -, -⟩ := take_ok took
    exact hpasses.settle ih w ihbegun
  | publish _ result ih =>
    rw [publish_carried]
    exact ih

/-- Nothing but windows goes from one cycle to the next. -/
theorem FleetState.Reachable.starts_with_windows {c : Controller} {s : FleetState} (h : s.Reachable c)
    (table : Table) (a : Address) :
    ∃ windows, c.collector.startingMetrics (s.carried.of table) a = .ofWindows windows := by
  have hpasses : c.PassesOn fun _ _ m => ∃ windows, m = .ofWindows windows := by
    intro w carried hcarried table a ha
    exact ⟨_, rfl⟩
  rcases c.collector.startingMetrics_cases (s.carried.of table) a with hnew | hmem
  · exact ⟨_, hnew⟩
  · exact h.carried_holds hpasses table _ hmem

end FleetHealth.Fleet
