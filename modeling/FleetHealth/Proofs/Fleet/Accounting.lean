import FleetHealth.Proofs.Fleet.Collection
import Mathlib.Data.Finset.Card

/-! # Every address is accounted for

The task of an address leaves a host or an error, and never both. So the hosts and errors
of a collection together number its distinct keys, whatever the gateways do. Repetitions
of an address are not seen at all.
-/
namespace FleetHealth.Fleet

open Clock Gateway Net

def keyCount (addresses : List Address) : Nat := (addresses.map Address.key).toFinset.card

theorem length_distinctAddresses (addresses : List Address) :
    (distinctAddresses addresses).length = keyCount addresses := by
  have hsame : ((distinctAddresses addresses).map Address.key).toFinset =
      (addresses.map Address.key).toFinset := by
    ext key
    simp only [List.mem_toFinset, List.mem_map]
    constructor
    · rintro ⟨a, ha, rfl⟩
      exact ⟨a, (mem_freshAddresses ha).1, rfl⟩
    · rintro ⟨a, ha, rfl⟩
      exact freshAddresses_covers ha List.not_mem_nil
  rw [keyCount, ← hsame, List.toFinset_card_of_nodup (nodup_distinctAddresses addresses),
    List.length_map]

theorem distinctAddresses_eq_nil_iff {addresses : List Address} :
    distinctAddresses addresses = [] ↔ addresses = [] := by
  constructor
  · intro hnone
    refine List.eq_nil_iff_forall_not_mem.mpr fun a ha => ?_
    obtain ⟨b, hb, -⟩ := freshAddresses_covers ha List.not_mem_nil
    have hmem : b ∈ distinctAddresses addresses := hb
    rw [hnone] at hmem
    cases hmem
  · rintro rfl
    rfl

/-- What distinct addresses leave under their own keys has distinct keys. -/
theorem nodup_filterMap_key {β : Type} {leaves : Address → Option β} {keyOf : β → String}
    (hkey : ∀ a b, leaves a = some b → keyOf b = a.key) {addresses : List Address}
    (hdistinct : (addresses.map Address.key).Nodup) :
    ((addresses.filterMap leaves).map keyOf).Nodup := by
  rw [List.Nodup, List.pairwise_map] at hdistinct ⊢
  refine hdistinct.filterMap leaves ?_
  intro a a' hne b hb b' hb' hsame
  rw [hkey a b hb, hkey a' b' hb'] at hsame
  exact hne hsame

/-! ## Errors of a collection -/

namespace TaskEnd

def failure? : TaskEnd → Option HostError
  | .failed e _ => some e
  | .built _ | .died => none

def error? (a : Address) : TaskEnd → Option HostError
  | .built _ => none
  | .failed e _ => some e
  | .died => some (.aborted (toString a))

end TaskEnd

def errorsOf : Except NoHosts Collected → List HostError
  | .ok c => c.errors
  | .error e => e.errors

theorem errorsOf_conclude (table : Table) (c : Collected) : errorsOf (conclude table c) = c.errors := by
  unfold conclude
  split <;> rfl

theorem foldl_add_errors (results : List TaskResult) (c : Collected) :
    (results.foldl Collected.add c).errors = c.errors ++ results.filterMap (·.ends.failure?) := by
  induction results generalizing c with
  | nil => simp
  | cons r rest ih =>
    rw [List.foldl_cons, ih]
    unfold Collected.add
    cases hends : r.ends <;> simp [hends, TaskEnd.failure?]

theorem gather_errors (results : List TaskResult) :
    (gather results).errors =
      (arrivals results).filterMap (·.ends.failure?) ++ results.filterMap diedError? := by
  rw [gather, foldl_add_errors]
  rfl

/-- Errors that were delivered, and then those of dead tasks, are all errors. -/
theorem failures_append_died_perm (results : List TaskResult) :
    (results.filterMap (·.ends.failure?) ++ results.filterMap diedError?).Perm
      (results.filterMap fun r => r.ends.error? r.address) := by
  induction results with
  | nil => exact .refl _
  | cons r rest ih =>
    cases hends : r.ends with
    | built host => simpa [hends, TaskEnd.failure?, TaskEnd.error?, diedError?] using ih
    | failed e carried => simpa [hends, TaskEnd.failure?, TaskEnd.error?, diedError?] using ih
    | died =>
      simpa [hends, TaskEnd.failure?, TaskEnd.error?, diedError?] using
        List.perm_middle.trans (ih.cons _)

namespace Collector

variable (c : Collector) (s : Surroundings) (table : Table) (carried : Keyed Metrics)

theorem errorsOf_collect_perm (addresses : List Address) :
    (errorsOf (c.collect s table addresses carried)).Perm
      ((distinctAddresses addresses).filterMap fun a => (c.ends s table carried a).error? a) := by
  have haddress : ∀ a m, (collectHost (c.context s a) table a m).address = a := by
    intro a m
    unfold collectHost
    split <;> rfl
  have htasks : (c.tasks s table addresses carried).filterMap
      (fun r => r.ends.error? r.address) =
        (distinctAddresses addresses).filterMap fun a => (c.ends s table carried a).error? a := by
    rw [tasks, List.filterMap_map]
    refine List.filterMap_congr fun a _ => ?_
    rw [Function.comp_apply, haddress]
    rfl
  rw [collect, errorsOf_conclude, gather_errors, ← htasks]
  exact (((arrivals_perm _).filterMap _).append_right _).trans (failures_append_died_perm _)

/-- Each distinct address gives one host or one error. -/
theorem length_hosts_add_errors (addresses : List Address) :
    (hostsOf (c.collect s table addresses carried)).length
        + (errorsOf (c.collect s table addresses carried)).length = keyCount addresses := by
  rw [(c.hostsOf_collect_perm ..).length_eq, (c.errorsOf_collect_perm ..).length_eq, built,
    ← length_distinctAddresses]
  induction distinctAddresses addresses with
  | nil => rfl
  | cons a rest ih =>
    cases hends : c.ends s table carried a <;>
      simp [hends, TaskEnd.host?, TaskEnd.error?, ← ih] <;> omega

end Collector

/-- Hosts with distinct keys of the addresses, and as many errors as it takes to account for
each distinct key once. -/
structure AccountsFor (addresses : List Address) (hosts : List Host) (errors : Nat) : Prop where
  total : hosts.length + errors = keyCount addresses
  distinct : (hosts.map Host.key).Nodup
  configured : ∀ host ∈ hosts, ∃ a ∈ addresses, host.key = a.key

end FleetHealth.Fleet
