import FleetHealth.Proofs.Fleet.Collection
import FleetHealth.Proofs.Fleet.Grading

/-! # What a cycle carries over

A cycle takes out what is carried for each table, lets its collections hand it on, and
puts it back in one of two ways. Whichever way that is, a table that was polled carries
what its collection has handed on, and any other table what it carried before.
-/
namespace FleetHealth.Fleet

open Clock Gateway Net

/-- What a collection hands on: what it retains, and the windows of its hosts. -/
def handedOn (result : Except NoHosts Collected) : Keyed Metrics :=
  (retainedOf result).insertAll ((hostsOf result).map Host.carried)

theorem carried_fst (host : Host) : host.carried.1 = host.key := rfl

theorem distinct_retainedOf_collect (c : Collector) (s : Surroundings) (table : Table)
    (addresses : List Address) (carried : Keyed Metrics) :
    Keyed.Distinct (retainedOf (c.collect s table addresses carried)).entries := by
  rw [Collector.collect, retainedOf_conclude, gather_retained]
  exact Keyed.distinct_ofEntries _

namespace Collector

variable {c : Collector} {s : Surroundings} {table : Table} {carried : Keyed Metrics}
  {addresses : List Address} {a : Address}

theorem distinct_handedOn : Keyed.Distinct (handedOn (c.collect s table addresses carried)).entries :=
  Keyed.distinct_insertAll (distinct_retainedOf_collect ..) _

/-- An address whose task does not die is handed on with the samples of its calls. -/
theorem handedOn_key (ha : a ∈ distinctAddresses addresses) (urls : a.HasUrls table)
    (halive : c.ends s table carried a ≠ .died) :
    ∃ kept, (handedOn (c.collect s table addresses carried)).get? a.key = some kept ∧
      kept.windows =
        (c.startingMetrics carried a).windows.feed ((c.context s a).samples table a) := by
  have hhosts : ((hostsOf (c.collect s table addresses carried)).map Host.carried).filter
      (·.1 = a.key) = ((c.ends s table carried a).host?.map Host.carried).toList := by
    have hsame : ∀ host ∈ hostsOf (c.collect s table addresses carried),
        ((fun e : String × Metrics => decide (e.1 = a.key)) ∘ Host.carried) host =
          decide (host.key = a.key) := by
      intro host _
      rw [Function.comp_apply]
      exact decide_eq_decide.mpr (by rw [carried_fst])
    rw [List.filter_map, List.filter_congr hsame, c.collect_hosts_key ha]
    cases (c.ends s table carried a).host? <;> rfl
  rw [handedOn, Keyed.get?_insertAll, hhosts, c.collect_retained_key ha]
  have hends : TaskEnds _ table a _ (c.ends s table carried a) := c.ends_taskEnds a
  generalize c.ends s table carried a = ends at hends halive ⊢
  cases hends with
  | unaddressed missing urls' => exact absurd urls urls'
  | failed e urls nothing own =>
    refine ⟨(c.startingMetrics carried a).carryForward, rfl, ?_⟩
    rw [nothing, Metrics.windows_carryForward, RateWindows.feed_nil]
  | built host urls continues => exact ⟨host.metrics.carryForward, rfl, continues.windows⟩
  | died urls => exact absurd rfl halive

/-- What is handed on was left by a task under the key of its address, with the samples of its
calls. -/
theorem mem_handedOn {e : String × Metrics}
    (he : e ∈ (handedOn (c.collect s table addresses carried)).entries) :
    ∃ a ∈ distinctAddresses addresses, e = (a.key, .ofWindows
      ((c.startingMetrics carried a).windows.feed ((c.context s a).samples table a))) := by
  rcases Keyed.mem_insertAll he with hretained | hhost
  · rw [collect, retainedOf_conclude, gather_retained] at hretained
    have hkept := (Keyed.mem_insertAll hretained).resolve_left List.not_mem_nil
    have hperm := arrivals_perm (c.tasks s table addresses carried)
    rw [(hperm.filterMap (·.ends.kept?)).mem_iff, tasks_filterMap] at hkept
    obtain ⟨a, ha, hleft⟩ := List.mem_filterMap.mp hkept
    refine ⟨a, ha, ?_⟩
    have hends : TaskEnds _ table a _ (c.ends s table carried a) := c.ends_taskEnds a
    generalize c.ends s table carried a = ends at hends hleft
    cases hends with
    | failed e urls nothing own =>
      cases hleft
      rw [nothing, RateWindows.feed_nil]
      rfl
    | _ => cases hleft
  · obtain ⟨host, hmem, rfl⟩ := List.mem_map.mp hhost
    obtain ⟨a, ha, hbuilt⟩ := built_of_mem_hosts hmem
    have hcontinues := ends_host hbuilt
    refine ⟨a, ha, ?_⟩
    unfold Host.carried Host.key Metrics.carryForward
    rw [hcontinues.address, hcontinues.windows]
    rfl

theorem handedOn_nil : handedOn (c.collect s table [] carried) = .empty := by
  rw [handedOn, collect, retainedOf_conclude, hostsOf_conclude, gather_retained, gather_hosts]
  simp [tasks, distinctAddresses, freshAddresses, arrivals, Keyed.ofEntries]

end Collector

theorem windows_updateProgress (m reference : Metrics) :
    (m.updateProgress reference).1.windows = m.windows :=
  Metrics.updateProgress_frame (fun _ _ => rfl) (fun _ _ => rfl) m reference

/-- Grading a host changes nothing that is carried over. -/
theorem grade_carried (table : Table) (reference : Metrics) (tolerance : Tolerance) (host : Host) :
    (grade table reference tolerance host).carried = host.carried := by
  unfold grade refreshProgress Host.carried Host.key Metrics.carryForward
  dsimp only
  split
  · rfl
  · split <;> simp [Host.note, windows_updateProgress]

theorem carried_collected (table : Table) (reference : Metrics) (tolerance : Tolerance)
    (collected : Collected) :
    (TableOutcome.collected table reference tolerance collected).carried =
      some (handedOn (.ok collected)) := by
  have hcarried : (collected.hosts.map (grade table reference tolerance)).map Host.carried =
      collected.hosts.map Host.carried := by
    simp [Function.comp_def, grade_carried]
  unfold TableOutcome.carried TableOutcome.collected
  dsimp only
  rw [hcarried]
  rfl

theorem carried_failed (e : NoHosts) :
    (TableOutcome.failed e).carried = some (handedOn (.error e)) := rfl

/-! ## The work of a cycle -/

namespace Controller

def handsOn (c : Controller) (w : World) (carried : Carried) (table : Table) : Keyed Metrics :=
  handedOn (c.collector.collect (w.surroundings table) table (c.endpoints.get table)
    (carried.of table))

variable {c : Controller} {w : World} {taken : Taken}

theorem dependent_carried (c : Controller) (w : World) (taken : Taken) (reference : Metrics)
    (table : Table) : ((c.dependent w taken reference table).carried).getD .empty =
      if taken.active.get table then c.handsOn w taken.carried table else .empty := by
  unfold dependent handsOn
  by_cases hactive : taken.active.get table = true
  · rw [if_pos hactive]
    by_cases hempty : c.endpoints.get table = []
    · simp [hempty, Collector.handedOn_nil, TableOutcome.skipped, TableOutcome.carried]
    · rw [if_neg (by simp [hactive, hempty])]
      cases c.collector.collect (w.surroundings table) table (c.endpoints.get table)
          (taken.carried.of table) with
      | ok collected => simp [carried_collected]
      | error e => simp [carried_failed]
  · simp [hactive, TableOutcome.skipped, TableOutcome.carried]

/-- The work of a cycle that fails puts back what the reference table hands on, and what the
other tables had. -/
theorem work_failed {reason : Unavailable} {back : Carried} (h : c.work w taken = .failed reason back) :
    back = taken.carried.set .rpc (some (c.handsOn w taken.carried .rpc)) := by
  unfold work at h
  unfold handsOn
  change _ = taken.carried.set .rpc (some (handedOn (c.collector.collect (w.surroundings .rpc) .rpc
    c.endpoints.rpc (taken.carried.of .rpc))))
  cases hcollect : c.collector.collect (w.surroundings .rpc) .rpc c.endpoints.rpc
      (taken.carried.of .rpc) with
  | error e =>
    simp only [hcollect, Work.failed.injEq] at h
    exact h.2.symm
  | ok collected =>
    simp only [hcollect] at h
    split at h
    · simp only [Work.failed.injEq] at h
      exact h.2.symm
    · unfold complete at h
      dsimp only at h
      split at h <;> cases h

/-- The work of a cycle that succeeds carries on what the polled tables hand on. -/
theorem work_done {report : CycleReport} {next : Carried} {counts : Counts}
    (h : c.work w taken = .done report next counts) (table : Table) :
    next.of table = if table = .rpc ∨ taken.active.get table = true
      then c.handsOn w taken.carried table else .empty := by
  unfold work at h
  split at h
  · cases h
  · next collected hcollect =>
    split at h
    · cases h
    · next best hbest =>
      unfold complete at h
      dsimp only at h
      split at h
      · cases h
      cases h
      unfold Carried.of
      rw [PerTable.get_build]
      cases table with
      | rpc =>
        simp only [PerTable.get, carried_collected, Option.getD_some, handsOn, hcollect, true_or,
          if_true]
      | node =>
        refine (c.dependent_carried w taken _ .node).trans ?_
        by_cases hactive : taken.active.get .node = true <;> simp [hactive]
      | validator =>
        refine (c.dependent_carried w taken _ .validator).trans ?_
        by_cases hactive : taken.active.get .validator = true <;> simp [hactive]

end Controller

/-! ## A whole cycle -/

namespace FleetState

/-- Nothing is carried twice, and nothing at all for a table that is off. -/
structure Tidy (s : FleetState) : Prop where
  distinct : ∀ table, Keyed.Distinct (s.carried.of table).entries
  off : ∀ table, s.active.get table = false → s.carried.of table = .empty

theorem setActive_active (s : FleetState) (table other : Table) (on : Bool) :
    (s.setActive table on).active.get other = if table = other then on else s.active.get other := by
  cases on <;> exact PerTable.get_set ..

theorem setActive_carried (s : FleetState) (table other : Table) (on : Bool) :
    (s.setActive table on).carried.of other =
      if table = other ∧ on = false then .empty else s.carried.of other := by
  cases on with
  | true => simp [setActive]
  | false =>
    simp only [setActive, Carried.of, Bool.false_eq_true, if_false, PerTable.get_set, and_true]
    split <;> rfl

theorem Tidy.setActive {s : FleetState} (h : s.Tidy) (table : Table) (on : Bool) :
    (s.setActive table on).Tidy := by
  constructor
  · intro other
    rw [setActive_carried]
    split
    · exact List.nodup_nil
    · exact h.distinct other
  · intro other hoff
    rw [setActive_active] at hoff
    rw [setActive_carried]
    by_cases htable : table = other
    · rw [if_pos htable] at hoff
      rw [if_pos ⟨htable, hoff⟩]
    · rw [if_neg htable] at hoff
      rw [if_neg fun hboth => htable hboth.1]
      exact h.off other hoff

theorem take_ok {s : FleetState} {endpoints : List Address} {taken : Taken} {fleet : FleetState}
    (h : s.take endpoints = .ok (taken, fleet)) :
    taken = ⟨s.active, s.carried⟩ ∧ fleet = { s with carried := .none } ∧
      s.active.rpc = true := by
  unfold take at h
  split at h
  · cases h
  · split at h
    · cases h
    · next hreference =>
      simp only [Except.ok.injEq, Prod.mk.injEq] at h
      refine ⟨h.1.symm, h.2.symm, ?_⟩
      cases hrpc : s.active.rpc with
      | true => rfl
      | false => exact absurd (by simp [hrpc]) hreference

theorem take_of_active {s : FleetState} {endpoints : List Address} (hrpc : s.active.rpc = true)
    (hendpoints : endpoints ≠ []) :
    s.take endpoints = .ok (⟨s.active, s.carried⟩, { s with carried := .none }) := by
  have hactive : s.active.toList ≠ [] := by
    simp [TableSet.toList, Table.all, PerTable.get, hrpc]
  rw [take, if_neg hactive, if_neg (by simp [hrpc, hendpoints])]

theorem take_error {s : FleetState} {endpoints : List Address} {e : CycleError}
    (h : s.take endpoints = .error e) : ∀ reason, e ≠ .referenceUnavailable reason := by
  rintro reason rfl
  unfold take at h
  split at h
  · cases h
  · split at h <;> cases h

@[simp] theorem publish_active (s : FleetState) (result : Except CycleFault CycleReport) :
    (s.publish result).active = s.active := by
  rcases result with (_ | _) | _ <;> rfl

@[simp] theorem publish_carried (s : FleetState) (result : Except CycleFault CycleReport) :
    (s.publish result).carried = s.carried := by
  rcases result with (_ | _) | _ <;> rfl

@[simp] theorem settle_active (s : FleetState) (work : Work) : (s.settle work).active = s.active := by
  cases work <;> rfl

/-- Putting back into a state that holds nothing puts back exactly that. -/
theorem restore_of {s : FleetState} {back : Carried} {table : Table}
    (hnothing : s.carried.get table = none) (hdistinct : Keyed.Distinct (back.of table).entries) :
    (s.restore back).carried.of table =
      if s.active.get table then back.of table else .empty := by
  unfold Carried.of restore at *
  rw [PerTable.get_build]
  split
  · rw [hnothing]
    cases hback : back.get table with
    | none => rfl
    | some kept =>
      rw [hback] at hdistinct
      exact Keyed.ofEntries_of_distinct hdistinct
  · rw [hnothing]
    rfl

theorem replace_of (s : FleetState) (next : Carried) (table : Table) :
    (s.replace next).carried.of table =
      if s.active.get table then next.of table else .empty := by
  unfold Carried.of replace
  rw [PerTable.get_build]
  split <;> rfl

end FleetState

namespace Monitor

variable {m : Monitor} {c : Controller} {w : World}

theorem run_refused {e : CycleError} (h : m.fleet.take c.endpoints.rpc = .error e)
    (during : FleetState → FleetState) :
    (m.run c w during).2 = .error (.failed e) ∧
      (m.run c w during).1.fleet = during (m.fleet.publish (.error (.failed e))) := by
  unfold run
  rw [h]
  exact ⟨rfl, rfl⟩

theorem run_worked {taken : Taken} {fleet : FleetState}
    (h : m.fleet.take c.endpoints.rpc = .ok (taken, fleet)) (during : FleetState → FleetState) :
    (m.run c w during).2 = (c.work w taken).result ∧
      (m.run c w during).1.fleet =
        ((during fleet).settle (c.work w taken)).publish (c.work w taken).result := by
  unfold run
  rw [h]
  exact ⟨rfl, rfl⟩

def polls (m : Monitor) (c : Controller) (w : World) (table : Table) : Bool :=
  match (m.run c w id).2 with
  | .ok _ | .error .overflow => m.fleet.active.get table
  | .error (.failed (.referenceUnavailable _)) => table = .rpc
  | .error (.failed .noReferenceEndpoints) | .error (.failed .noActiveTables) => false

/-- A cycle that overflows comes to an end but not back to its caller. -/
def Returns (m : Monitor) (c : Controller) (w : World) : Prop :=
  (m.run c w id).2 ≠ .error .overflow

instance (result : Except CycleFault CycleReport) : Decidable (result = .error .overflow) :=
  match result with
  | .error .overflow => isTrue rfl
  | .error (.failed _) | .ok _ => isFalse nofun

instance (m : Monitor) (c : Controller) (w : World) : Decidable (m.Returns c w) :=
  inferInstanceAs (Decidable (¬_))

theorem run_active (m : Monitor) (c : Controller) (w : World) :
    (m.run c w id).1.fleet.active = m.fleet.active := by
  cases htake : m.fleet.take c.endpoints.rpc with
  | error e => simp [(run_refused htake id).2]
  | ok r =>
    obtain ⟨-, hfleet, -⟩ := FleetState.take_ok htake
    simp [(run_worked htake id).2, hfleet]

theorem active_of_polls {table : Table} (h : m.polls c w table = true) :
    m.fleet.active.get table = true := by
  unfold polls at h
  cases htake : m.fleet.take c.endpoints.rpc with
  | error e =>
    rw [(run_refused htake id).1] at h
    have hreason := FleetState.take_error htake
    cases e with
    | referenceUnavailable reason => exact absurd rfl (hreason reason)
    | noReferenceEndpoints | noActiveTables => cases h
  | ok r =>
    obtain ⟨-, -, hrpc⟩ := FleetState.take_ok htake
    split at h
    · exact h
    · exact h
    · rw [of_decide_eq_true h]
      exact hrpc
    · cases h
    · cases h

/-- A polled table carries what its collection hands on; the others what they did before. -/
theorem run_carried (h : m.fleet.Tidy) (returns : m.Returns c w) (table : Table) :
    (m.run c w id).1.fleet.carried.of table =
      if m.polls c w table then c.handsOn w m.fleet.carried table
      else m.fleet.carried.of table := by
  unfold Returns at returns
  unfold polls
  cases htake : m.fleet.take c.endpoints.rpc with
  | error e =>
    rw [(run_refused htake id).1, (run_refused htake id).2]
    have hreason := FleetState.take_error htake
    cases e with
    | referenceUnavailable reason => exact absurd rfl (hreason reason)
    | noReferenceEndpoints | noActiveTables => simp
  | ok r =>
    obtain ⟨taken, fleet⟩ := r
    rw [(run_worked htake id).1] at returns ⊢
    rw [(run_worked htake id).2]
    obtain ⟨rfl, rfl, hrpc⟩ := FleetState.take_ok htake
    rw [FleetState.publish_carried]
    cases hwork : c.work w ⟨m.fleet.active, m.fleet.carried⟩ with
    | overflow counts =>
      rw [hwork] at returns
      exact absurd rfl returns
    | failed reason back =>
      have hback : ∀ t, back.of t = if .rpc = t then c.handsOn w m.fleet.carried .rpc
          else m.fleet.carried.of t := by
        intro t
        rw [Controller.work_failed hwork, Carried.of, PerTable.get_set]
        split <;> rfl
      have hdistinct : Keyed.Distinct (back.of table).entries := by
        rw [hback]
        split
        · exact Collector.distinct_handedOn
        · exact h.distinct table
      dsimp only [FleetState.settle, id, Work.result]
      rw [FleetState.restore_of (by cases table <;> rfl) hdistinct, hback]
      by_cases htable : table = .rpc
      · subst htable
        simp [show m.fleet.active.get .rpc = true from hrpc]
      · by_cases hactive : m.fleet.active.get table = true
        · simp [hactive, htable, Ne.symm htable]
        · simp [hactive, htable, h.off table (Bool.eq_false_iff.mpr hactive)]
    | done report next counts =>
      dsimp only [FleetState.settle, id, Work.result]
      rw [FleetState.replace_of]
      by_cases hactive : m.fleet.active.get table = true
      · simp [hactive, Controller.work_done hwork table]
      · simp [hactive, h.off table (Bool.eq_false_iff.mpr hactive)]

theorem tidy_run (h : m.fleet.Tidy) (returns : m.Returns c w) : (m.run c w id).1.fleet.Tidy := by
  constructor
  · intro table
    rw [run_carried h returns]
    split
    · exact Collector.distinct_handedOn
    · exact h.distinct table
  · intro table hoff
    rw [run_active] at hoff
    have hpolls : ¬m.polls c w table = true := by
      intro hpolls
      rw [active_of_polls hpolls] at hoff
      cases hoff
    rw [run_carried h returns, if_neg hpolls]
    exact h.off table hoff

end Monitor

end FleetHealth.Fleet
