import FleetHealth.Proofs.Fleet.Verdicts

/-! # Moments in any order

Cycles may overlap, with one another and with tables being switched on and off. Each of them
touches the shared state at its own moments only, and between these anything may happen.
Whatever the order, nothing is carried for a table that is off.
-/
namespace FleetHealth.Fleet

open Clock Gateway Net

inductive Stage where
  /-- The carried metrics were taken out and the gateways are being called. -/
  | working (taken : Taken)
  /-- Metrics were put back, or there was nothing to take out. -/
  | worked (result : Except CycleFault CycleReport)
  /-- The result was made known, or the cycle has overflown. -/
  | ended (result : Except CycleFault CycleReport)

def Stage.result? : Stage → Option (Except CycleFault CycleReport)
  | .working _ => none
  | .worked result | .ended result => some result

structure Shared where
  fleet : FleetState
  cycles : List Stage

/-- A moment at which the shared state is touched, by a switch or by one of the cycles. -/
inductive Moment where
  | switch (table : Table) (on : Bool)
  | take
  | settle (cycle : Nat) (w : World)
  | publish (cycle : Nat)

namespace Shared

def begin (active : TableSet) : Shared := ⟨.new active, []⟩

/-- A moment that a cycle has not come to, or that has passed, changes nothing. -/
def step (c : Controller) (x : Shared) : Moment → Shared
  | .switch table on => { x with fleet := x.fleet.setActive table on }
  | .take =>
    match x.fleet.take c.endpoints.rpc with
    | .ok (taken, fleet) => ⟨fleet, x.cycles ++ [.working taken]⟩
    | .error e => { x with cycles := x.cycles ++ [.worked (.error (.failed e))] }
  | .settle cycle w =>
    match x.cycles[cycle]? with
    | some (.working taken) =>
      ⟨x.fleet.settle (c.work w taken), x.cycles.set cycle (.worked (c.work w taken).result)⟩
    | _ => x
  | .publish cycle =>
    match x.cycles[cycle]? with
    | some (.worked result) => ⟨x.fleet.publish result, x.cycles.set cycle (.ended result)⟩
    | _ => x

def run (c : Controller) (x : Shared) (moments : List Moment) : Shared := moments.foldl (step c) x

variable {c : Controller} {x : Shared}

theorem run_append (first later : List Moment) : x.run c (first ++ later) = (x.run c first).run c later :=
  List.foldl_append

/-! ## What a moment comes to -/

inductive Outcome (c : Controller) (x : Shared) : Moment → Shared → Prop
  | switched (table : Table) (on : Bool) :
      Outcome c x (.switch table on) ⟨x.fleet.setActive table on, x.cycles⟩
  | taken {taken : Taken} {fleet : FleetState} (took : x.fleet.take c.endpoints.rpc = .ok (taken, fleet)) :
      Outcome c x .take ⟨fleet, x.cycles ++ [.working taken]⟩
  | refused {e : CycleError} (refused : x.fleet.take c.endpoints.rpc = .error e) :
      Outcome c x .take ⟨x.fleet, x.cycles ++ [.worked (.error (.failed e))]⟩
  | settled {cycle : Nat} {taken : Taken} (begun : x.cycles[cycle]? = some (.working taken)) (w : World) :
      Outcome c x (.settle cycle w)
        ⟨x.fleet.settle (c.work w taken), x.cycles.set cycle (.worked (c.work w taken).result)⟩
  | published {cycle : Nat} {result : Except CycleFault CycleReport}
      (worked : x.cycles[cycle]? = some (.worked result)) :
      Outcome c x (.publish cycle) ⟨x.fleet.publish result, x.cycles.set cycle (.ended result)⟩
  | passed (moment : Moment) : Outcome c x moment x

theorem step_outcome (c : Controller) (x : Shared) (moment : Moment) :
    Outcome c x moment (x.step c moment) := by
  cases moment with
  | switch table on => exact .switched table on
  | take =>
    unfold step
    cases htake : x.fleet.take c.endpoints.rpc with
    | ok r => exact .taken htake
    | error e => exact .refused htake
  | settle cycle w =>
    unfold step
    dsimp only
    split
    · next taken hcycle => exact .settled hcycle w
    · exact .passed _
  | publish cycle =>
    unfold step
    dsimp only
    split
    · next result hcycle => exact .published hcycle
    · exact .passed _

/-- What holds of the cycles so far, and goes from each stage to the next, holds of all cycles. -/
theorem Outcome.stages {y : Shared} {moment : Moment} {p : Stage → Prop} (h : Outcome c x moment y)
    (before : ∀ stage ∈ x.cycles, p stage)
    (taken : ∀ taken fleet, x.fleet.take c.endpoints.rpc = .ok (taken, fleet) → p (.working taken))
    (refused : ∀ e, x.fleet.take c.endpoints.rpc = .error e → p (.worked (.error (.failed e))))
    (settled : ∀ w taken, p (.working taken) → p (.worked (c.work w taken).result))
    (published : ∀ result, p (.worked result) → p (.ended result)) :
    ∀ stage ∈ y.cycles, p stage := by
  have happended : ∀ new, p new → ∀ stage ∈ x.cycles ++ [new], p stage := by
    intro new hnew stage hmem
    rcases List.mem_append.mp hmem with hmem | hmem
    · exact before stage hmem
    · exact List.mem_singleton.mp hmem ▸ hnew
  have hreplaced : ∀ cycle new, p new → ∀ stage ∈ x.cycles.set cycle new, p stage := by
    intro cycle new hnew stage hmem
    rcases List.mem_or_eq_of_mem_set hmem with hmem | rfl
    · exact before stage hmem
    · exact hnew
  cases h with
  | switched | passed => exact before
  | taken took => exact happended _ (taken _ _ took)
  | refused unable => exact happended _ (refused _ unable)
  | settled begun w => exact hreplaced _ _ (settled w _ (before _ (List.mem_of_getElem? begun)))
  | published worked => exact hreplaced _ _ (published _ (before _ (List.mem_of_getElem? worked)))

/-! ## Every order leads to a reachable state -/

def Begun (c : Controller) (stage : Stage) : Prop :=
  ∀ taken, stage = .working taken → ∃ earlier rest : FleetState,
    earlier.Reachable c ∧ earlier.take c.endpoints.rpc = .ok (taken, rest)

/-- The state is reachable, and so were those that the cycles began in. -/
structure Traced (c : Controller) (x : Shared) : Prop where
  fleet : x.fleet.Reachable c
  cycles : ∀ stage ∈ x.cycles, Begun c stage

theorem traced_begin (active : TableSet) : (begin active).Traced c :=
  ⟨.new active, fun _ h => by cases h⟩

theorem Traced.step (h : x.Traced c) (moment : Moment) : (x.step c moment).Traced c := by
  have houtcome := step_outcome c x moment
  generalize x.step c moment = y at houtcome ⊢
  constructor
  · cases houtcome with
    | switched table on => exact h.fleet.setActive table on
    | taken took => exact h.fleet.take took
    | refused | passed => exact h.fleet
    | settled begun w =>
      obtain ⟨earlier, rest, hearlier, htake⟩ := h.cycles _ (List.mem_of_getElem? begun) _ rfl
      exact h.fleet.settle hearlier htake w
    | published worked => exact h.fleet.publish _
  · refine houtcome.stages h.cycles ?_ ?_ ?_ ?_
    · rintro taken fleet htake _ ⟨⟩
      exact ⟨x.fleet, fleet, h.fleet, htake⟩
    · rintro e - taken ⟨⟩
    · rintro w taken - next ⟨⟩
    · rintro result - next ⟨⟩

theorem Traced.run (h : x.Traced c) (moments : List Moment) : (x.run c moments).Traced c := by
  induction moments generalizing x with
  | nil => exact h
  | cons moment rest ih => exact ih (h.step moment)

/-! ## What is on -/

/-- A table stays on, or off, until it is switched. -/
theorem step_active {table : Table} {on : Bool} (h : x.fleet.active.get table = on)
    {moment : Moment} (hmoment : moment ≠ .switch table (!on)) :
    (x.step c moment).fleet.active.get table = on := by
  have houtcome := step_outcome c x moment
  generalize x.step c moment = y at houtcome ⊢
  cases houtcome with
  | switched other after =>
    refine (FleetState.setActive_active ..).trans ?_
    split
    · next hsame =>
      subst hsame
      cases on <;> cases after <;> first | rfl | exact absurd rfl hmoment
    · exact h
  | taken took =>
    obtain ⟨-, rfl, -⟩ := FleetState.take_ok took
    exact h
  | refused | passed => exact h
  | settled begun w =>
    rw [FleetState.settle_active]
    exact h
  | published worked =>
    rw [FleetState.publish_active]
    exact h

theorem run_active {table : Table} {on : Bool} (h : x.fleet.active.get table = on)
    {moments : List Moment} (hmoments : ∀ moment ∈ moments, moment ≠ .switch table (!on)) :
    (x.run c moments).fleet.active.get table = on := by
  induction moments generalizing x with
  | nil => exact h
  | cons moment rest ih =>
    have hstep := step_active (c := c) h (hmoments moment List.mem_cons_self)
    exact ih hstep fun m hm => hmoments m (List.mem_cons_of_mem _ hm)

/-! ## Cycles that fail -/

/-- A cycle that has failed got as far as asking for a reference. -/
def LacksReference (stage : Stage) : Prop :=
  ∀ e, stage.result? = some (.error (.failed e)) → ∃ reason, e = .referenceUnavailable reason

theorem lacksReference_work (c : Controller) (w : World) (taken : Taken) :
    LacksReference (.worked (c.work w taken).result) := by
  intro e hfailed
  cases hwork : c.work w taken with
  | failed reason back =>
    rw [hwork] at hfailed
    cases hfailed
    exact ⟨reason, rfl⟩
  | overflow | done =>
    rw [hwork] at hfailed
    cases hfailed

/-- With a reference table that stays on and has endpoints, cycles can always begin. -/
theorem run_lacksReference (h : ∀ stage ∈ x.cycles, LacksReference stage)
    (hrpc : x.fleet.active.get .rpc = true) (hendpoints : c.endpoints.rpc ≠ []) {moments : List Moment}
    (hmoments : ∀ moment ∈ moments, moment ≠ .switch .rpc false) :
    ∀ stage ∈ (x.run c moments).cycles, LacksReference stage := by
  induction moments generalizing x with
  | nil => exact h
  | cons moment rest ih =>
    have hstep : ∀ stage ∈ (x.step c moment).cycles, LacksReference stage := by
      refine (step_outcome c x moment).stages h ?_ ?_ ?_ ?_
      · rintro taken fleet - e ⟨⟩
      · intro e hrefused
        rw [FleetState.take_of_active hrpc hendpoints] at hrefused
        cases hrefused
      · intro w taken _
        exact lacksReference_work c w taken
      · intro result hworked
        exact hworked
    have hon : (x.step c moment).fleet.active.get .rpc = true :=
      step_active hrpc (hmoments moment List.mem_cons_self)
    exact ih hstep hon fun m hm => hmoments m (List.mem_cons_of_mem _ hm)

/-! ## A cycle by itself -/

def schedule (cycle : Nat) (w : World) (switches : List (Table × Bool)) : List Moment :=
  .take :: switches.map (fun s => .switch s.1 s.2) ++ [.settle cycle w, .publish cycle]

def switchAll (s : FleetState) (switches : List (Table × Bool)) : FleetState :=
  switches.foldl (fun s next => s.setActive next.1 next.2) s

theorem run_switches (switches : List (Table × Bool)) :
    x.run c (switches.map fun s => .switch s.1 s.2) = ⟨switchAll x.fleet switches, x.cycles⟩ := by
  induction switches generalizing x with
  | nil => rfl
  | cons next rest ih => exact ih

theorem switchAll_publish (s : FleetState) (result : Except CycleFault CycleReport)
    (switches : List (Table × Bool)) :
    switchAll (s.publish result) switches = (switchAll s switches).publish result := by
  induction switches generalizing s with
  | nil => rfl
  | cons next rest ih =>
    have hnext : (s.publish result).setActive next.1 next.2 =
        (s.setActive next.1 next.2).publish result := by
      obtain ⟨table, on⟩ := next
      cases on <;> rcases result with (_ | _) | _ <;> rfl
    unfold switchAll at ih ⊢
    rw [List.foldl_cons, List.foldl_cons, hnext]
    exact ih _

end Shared

/-- The monitor runs a cycle through its moments, with the switches between them. -/
theorem Monitor.run_schedule (m : Monitor) (c : Controller) (w : World) (cycles : List Stage)
    (switches : List (Table × Bool)) :
    (⟨m.fleet, cycles⟩ : Shared).run c (Shared.schedule cycles.length w switches) =
      ⟨(m.run c w (Shared.switchAll · switches)).1.fleet,
        cycles ++ [.ended (m.run c w (Shared.switchAll · switches)).2]⟩ := by
  unfold Shared.schedule
  rw [List.cons_append, ← List.singleton_append, Shared.run_append, Shared.run_append]
  cases htake : m.fleet.take c.endpoints.rpc with
  | error e =>
    obtain ⟨hresult, hfleet⟩ := run_refused (w := w) htake (Shared.switchAll · switches)
    have hbegun : (⟨m.fleet, cycles⟩ : Shared).run c [.take] =
        ⟨m.fleet, cycles ++ [.worked (.error (.failed e))]⟩ := by
      simp [Shared.run, Shared.step, htake]
    rw [hbegun, Shared.run_switches, hresult, hfleet, Shared.switchAll_publish]
    simp [Shared.run, Shared.step]
  | ok r =>
    obtain ⟨taken, fleet⟩ := r
    obtain ⟨hresult, hfleet⟩ := run_worked (w := w) htake (Shared.switchAll · switches)
    have hbegun : (⟨m.fleet, cycles⟩ : Shared).run c [.take] =
        ⟨fleet, cycles ++ [.working taken]⟩ := by
      simp [Shared.run, Shared.step, htake]
    rw [hbegun, Shared.run_switches, hresult, hfleet]
    simp [Shared.run, Shared.step]

/-! ## Nothing is carried for a table that is off -/

namespace FleetState

def OnlyActive (s : FleetState) : Prop :=
  ∀ table kept, s.carried.get table = some kept → s.active.get table = true

theorem onlyActive_none {s : FleetState} (h : s.carried = .none) : s.OnlyActive := by
  intro table kept hkept
  rw [h] at hkept
  cases table <;> cases hkept

theorem OnlyActive.setActive {s : FleetState} (h : s.OnlyActive) (table : Table) (on : Bool) :
    (s.setActive table on).OnlyActive := by
  intro other kept hkept
  rw [setActive_active]
  cases on with
  | true =>
    split
    · rfl
    · exact h other kept hkept
  | false =>
    unfold FleetState.setActive at hkept
    simp only [Bool.false_eq_true, if_false, PerTable.get_set] at hkept
    split at hkept
    · cases hkept
    · next hother =>
      rw [if_neg hother]
      exact h other kept hkept

/-- Both ways to settle a cycle look at what is on now, not at what was on when it began. -/
theorem OnlyActive.settle {s : FleetState} (h : s.OnlyActive) (work : Work) :
    (s.settle work).OnlyActive := by
  intro table kept hkept
  rw [settle_active]
  cases work with
  | failed reason back =>
    unfold FleetState.settle restore at hkept
    dsimp only at hkept
    rw [PerTable.get_build] at hkept
    split at hkept
    · assumption
    · exact h table kept hkept
  | overflow counts => exact h table kept hkept
  | done report next counts =>
    unfold FleetState.settle replace at hkept
    dsimp only at hkept
    rw [PerTable.get_build] at hkept
    split at hkept
    · assumption
    · cases hkept

theorem OnlyActive.publish {s : FleetState} (h : s.OnlyActive)
    (result : Except CycleFault CycleReport) : (s.publish result).OnlyActive := by
  intro table kept hkept
  rw [publish_carried] at hkept
  rw [publish_active]
  exact h table kept hkept

theorem Reachable.onlyActive {c : Controller} {s : FleetState} (h : s.Reachable c) :
    s.OnlyActive := by
  induction h with
  | new active => exact onlyActive_none rfl
  | setActive _ table on ih => exact ih.setActive table on
  | take _ took _ =>
    obtain ⟨-, rfl, -⟩ := take_ok took
    exact onlyActive_none rfl
  | settle _ _ _ w ih _ => exact ih.settle _
  | publish _ result ih => exact ih.publish result

end FleetState

/-- However switches and the moments of cycles follow one another, metrics are carried for
tables that are on only. So a table that was switched off carries nothing until it is switched
on again, whatever the cycles come to that were polling it. -/
theorem nothing_carried_while_off (c : Controller) (active : TableSet) (moments : List Moment) :
    (∀ table kept, ((Shared.begin active).run c moments).fleet.carried.get table = some kept →
      ((Shared.begin active).run c moments).fleet.active.get table = true) ∧
    ∀ table later, (∀ moment ∈ later, moment ≠ .switch table true) →
      ((Shared.begin active).run c (moments ++ .switch table false :: later)).fleet.carried.get table
        = none := by
  have honly : ∀ moments, ((Shared.begin active).run c moments).fleet.OnlyActive := by
    intro moments
    exact ((Shared.traced_begin active).run moments).fleet.onlyActive
  refine ⟨honly moments, fun table later hlater => ?_⟩
  -- the switch leaves the table off, and cycles never switch a table on
  have hoff : ((Shared.begin active).run c
      (moments ++ .switch table false :: later)).fleet.active.get table = false := by
    rw [Shared.run_append]
    refine Shared.run_active (x := Shared.step c _ (.switch table false)) ?_ hlater
    exact (FleetState.setActive_active ..).trans (if_pos rfl)
  cases hkept : ((Shared.begin active).run c
      (moments ++ .switch table false :: later)).fleet.carried.get table with
  | none => rfl
  | some kept =>
    have hon := honly _ table kept hkept
    rw [hoff] at hon
    cases hon

def silentWorld : World :=
  { pairWorld with gateways := fun _ _ => {
      rpc := fun _ _ => .never
      scrape := fun _ _ => .never
      locate := fun _ => .never
      resolve := fun _ => none } }

/-- A reference and a full node after a first cycle and a second one in another world, with
switches while that was running. -/
def afterSecond (w : World) (switches : List (Table × Bool)) : Shared :=
  (Shared.begin pairMonitor.fleet.active).run pairController
    (Shared.schedule 0 pairWorld [] ++ Shared.schedule 1 w switches)

theorem running_cycle_brings_nothing_back :
    (∀ table ∈ [Table.rpc, .node], ((afterSecond pairWorld []).fleet.carried.get table).isSome ∧
      ((afterSecond silentWorld []).fleet.carried.get table).isSome) ∧
    ((afterSecond pairWorld [(.node, false)]).fleet.carried.get .rpc).isSome ∧
    ((afterSecond silentWorld [(.node, false)]).fleet.carried.get .rpc).isSome ∧
    ∀ w, (afterSecond w [(.node, false)]).fleet.carried.get .node = none := by
  refine ⟨by decide +kernel, by decide +kernel, by decide +kernel, fun w => ?_⟩
  have hmoments : Shared.schedule 0 pairWorld [] ++ Shared.schedule 1 w [(.node, false)] =
      (Shared.schedule 0 pairWorld [] ++ [.take]) ++
        .switch .node false :: [.settle 1 w, .publish 1] := rfl
  unfold afterSecond
  rw [hmoments]
  refine (nothing_carried_while_off pairController pairMonitor.fleet.active _).2 .node _ ?_
  intro moment hmoment
  simp only [List.mem_cons, List.not_mem_nil, or_false] at hmoment
  rcases hmoment with rfl | rfl <;> rintro ⟨⟩

end FleetHealth.Fleet
