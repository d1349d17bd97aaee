import FleetHealth.Proofs.Fleet.Accounting
import FleetHealth.Proofs.Fleet.CycleResult

/-! # Accounts of a cycle

A table that a cycle polls shows in its result with every address: in the report of the
table, or, when it has no hosts, in the error of the cycle or in one warning. Repeated
endpoints change neither the result nor the state.
-/
namespace FleetHealth.Fleet

open Chain Clock Gateway Net

/-! ## Warnings -/

namespace Controller

variable {c : Controller} {w : World} {active : TableSet} {collected : Collections}
  {reference : Host} {table : Table}

theorem outcomeOn_ok {polled : Collected} (h : c.Visits active table)
    (hpolled : collected table = .ok polled) (reference : Metrics) :
    c.outcomeOn active reference collected table =
      .collected table reference c.tolerance polled := by
  rw [outcomeOn, if_pos h, hpolled]

theorem outcomeOn_error {e : NoHosts} (h : c.Visits active table)
    (hfailed : collected table = .error e) (reference : Metrics) :
    c.outcomeOn active reference collected table = .failed e := by
  rw [outcomeOn, if_pos h, hfailed]

end Controller

/-! ## Cycles -/

theorem AccountsFor.graded {addresses : List Address} {hosts : List Host} {errors : Nat}
    (h : AccountsFor addresses hosts errors) (table : Table) (reference : Metrics)
    (tolerance : Tolerance) :
    AccountsFor addresses (hosts.map (grade table reference tolerance)) errors := by
  have hkey : ∀ host, (grade table reference tolerance host).key = host.key := by
    intro host
    rw [← carried_fst, grade_carried, carried_fst]
  refine ⟨?_, ?_, ?_⟩
  · rw [List.length_map]
    exact h.total
  · have hkeys : (hosts.map (grade table reference tolerance)).map Host.key = hosts.map Host.key := by
      simp [Function.comp_def, hkey]
    rw [hkeys]
    exact h.distinct
  · intro host hhost
    obtain ⟨plain, hplain, rfl⟩ := List.mem_map.mp hhost
    rw [hkey]
    exact h.configured plain hplain

namespace Monitor

variable {m : Monitor} {c : Controller} {w : World} {table : Table}

/-- Another table than the reference table is polled only in a cycle with a reference, and so
with a report unless it overflows. -/
theorem report_of_polls (h : m.polls c w table = true) (htable : table ≠ .rpc) :
    (m.run c w id).2 = .error .overflow ∨ ∃ report, (m.run c w id).2 = .ok report := by
  unfold polls at h
  cases hresult : (m.run c w id).2 with
  | ok report => exact .inr ⟨report, rfl⟩
  | error fault =>
    rw [hresult] at h
    cases fault with
    | overflow => exact .inl rfl
    | failed e =>
      cases e with
      | referenceUnavailable reason => exact absurd (of_decide_eq_true h) htable
      | noReferenceEndpoints | noActiveTables => cases h

end Monitor

end FleetHealth.Fleet
