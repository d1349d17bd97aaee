import FleetHealth.Fleet.Collect
import FleetHealth.Proofs.Fleet.Task
import FleetHealth.Proofs.Keyed
import FleetHealth.Proofs.Net.AddressShape

/-! # What a collection keeps

The tasks of a table have distinct keys, and each of them leaves at most one host or one
kept entry, under its own key. So for every key the collection holds exactly what the
task of that key has left, in whichever order the tasks finish.
-/
namespace FleetHealth.Fleet

open Clock Gateway Net

/-! ## Distinct addresses -/

theorem mem_freshAddresses {a : Address} {seen : List String} {addresses : List Address}
    (h : a ∈ freshAddresses seen addresses) : a ∈ addresses ∧ a.key ∉ seen := by
  induction addresses generalizing seen with
  | nil => cases h
  | cons first rest ih =>
    unfold freshAddresses at h
    split at h
    · exact ⟨List.mem_cons_of_mem _ (ih h).1, (ih h).2⟩
    · next hfirst =>
      rcases List.mem_cons.mp h with rfl | h
      · exact ⟨List.mem_cons_self, hfirst⟩
      · exact ⟨List.mem_cons_of_mem _ (ih h).1, fun hseen => (ih h).2 (List.mem_cons_of_mem _ hseen)⟩

theorem nodup_freshAddresses (seen : List String) (addresses : List Address) :
    ((freshAddresses seen addresses).map Address.key).Nodup := by
  induction addresses generalizing seen with
  | nil => exact List.nodup_nil
  | cons first rest ih =>
    unfold freshAddresses
    split
    · exact ih seen
    · refine List.nodup_cons.mpr ⟨fun hmem => ?_, ih _⟩
      obtain ⟨a, ha, hkey⟩ := List.mem_map.mp hmem
      exact (mem_freshAddresses ha).2 (hkey ▸ List.mem_cons_self)

theorem freshAddresses_covers {a : Address} {seen : List String} {addresses : List Address}
    (h : a ∈ addresses) (hseen : a.key ∉ seen) :
    ∃ b ∈ freshAddresses seen addresses, b.key = a.key := by
  induction addresses generalizing seen with
  | nil => cases h
  | cons first rest ih =>
    unfold freshAddresses
    by_cases hfirst : first.key = a.key
    · rw [if_neg (hfirst ▸ hseen)]
      exact ⟨first, List.mem_cons_self, hfirst⟩
    · have hrest : a ∈ rest := (List.mem_cons.mp h).resolve_left fun heq => hfirst (heq ▸ rfl)
      split
      · exact ih hrest hseen
      · obtain ⟨b, hb, hkey⟩ := ih hrest
          (List.not_mem_cons_of_ne_of_not_mem (Ne.symm hfirst) hseen)
        exact ⟨b, List.mem_cons_of_mem _ hb, hkey⟩

theorem nodup_distinctAddresses (addresses : List Address) :
    ((distinctAddresses addresses).map Address.key).Nodup := nodup_freshAddresses [] addresses

/-- Of configured addresses only repetitions are left out. -/
theorem mem_distinctAddresses {names : HostNames} {addresses : List Address}
    (h : ∀ a ∈ addresses, a.Configured (readUrl names)) {a : Address} : a ∈ distinctAddresses addresses ↔ a ∈ addresses := by
  refine ⟨fun ha => (mem_freshAddresses ha).1, fun ha => ?_⟩
  obtain ⟨b, hb, hkey⟩ := freshAddresses_covers ha List.not_mem_nil
  have hshaped := readUrl_shaped names
  have hsame : b = a := ((h b (mem_freshAddresses hb).1).wellFormed hshaped).eq_of_key_eq
    ((h a ha).wellFormed hshaped) hkey
  exact hsame ▸ hb

/-! ## Results by key -/

/-- Of what distinct addresses leave under their own keys, an address finds its own. -/
theorem filter_filterMap_key {β : Type} {leaves : Address → Option β} {keyOf : β → String}
    (hkey : ∀ a b, leaves a = some b → keyOf b = a.key) {addresses : List Address}
    (hdistinct : (addresses.map Address.key).Nodup) {a : Address} (ha : a ∈ addresses) :
    (addresses.filterMap leaves).filter (keyOf · = a.key) = (leaves a).toList := by
  induction addresses with
  | nil => cases ha
  | cons first rest ih =>
    have hfirst := List.nodup_cons.mp hdistinct
    rcases List.mem_cons.mp ha with rfl | ha
    · have hrest : (rest.filterMap leaves).filter (keyOf · = a.key) = [] := by
        rw [List.filter_eq_nil_iff]
        intro b hb hname
        obtain ⟨other, hother, hleaves⟩ := List.mem_filterMap.mp hb
        have hsame : other.key = a.key := (hkey other b hleaves).symm.trans (of_decide_eq_true hname)
        exact hfirst.1 (List.mem_map.mpr ⟨other, hother, hsame⟩)
      cases hleaves : leaves a with
      | none => simpa [List.filterMap_cons_none hleaves] using hrest
      | some b =>
        rw [List.filterMap_cons_some hleaves, List.filter_cons_of_pos (by simp [hkey a b hleaves]),
          hrest]
        rfl
    · have hne : first.key ≠ a.key := fun heq => hfirst.1 (List.mem_map.mpr ⟨a, ha, heq.symm⟩)
      cases hleaves : leaves first with
      | none =>
        rw [List.filterMap_cons_none hleaves]
        exact ih hfirst.2 ha
      | some b =>
        rw [List.filterMap_cons_some hleaves,
          List.filter_cons_of_neg (by simpa [hkey first b hleaves] using hne)]
        exact ih hfirst.2 ha

/-- A rearranged list of at most one element is the same list. -/
theorem eq_toList_of_perm {β : Type} {xs : List β} {x : Option β} (h : xs.Perm x.toList) :
    xs = x.toList := by
  cases x with
  | none => exact h.eq_nil
  | some b => exact List.perm_singleton.mp h

namespace TaskEnd

def host? : TaskEnd → Option Host
  | .built host => some host
  | .failed _ _ | .died => none

/-- What is kept for an address without a host. -/
def kept? : TaskEnd → Option (String × Metrics)
  | .failed _ carried => carried
  | .built _ | .died => none

theorem host?_eq_some {ends : TaskEnd} {host : Host} : ends.host? = some host ↔ ends = .built host := by
  cases ends <;> simp [host?]

end TaskEnd

theorem foldl_add (results : List TaskResult) (c : Collected) :
    (results.foldl Collected.add c).hosts = c.hosts ++ results.filterMap (·.ends.host?) ∧
      (results.foldl Collected.add c).retained =
        c.retained.insertAll (results.filterMap (·.ends.kept?)) := by
  induction results generalizing c with
  | nil => simp
  | cons r rest ih =>
    rw [List.foldl_cons, (ih _).1, (ih _).2]
    unfold Collected.add
    cases hends : r.ends with
    | built host => simp [hends, TaskEnd.host?, TaskEnd.kept?]
    | died => simp [hends, TaskEnd.host?, TaskEnd.kept?]
    | failed e carried =>
      cases carried with
      | none => simp [hends, TaskEnd.host?, TaskEnd.kept?, retain]
      | some kept =>
        simp [hends, TaskEnd.host?, TaskEnd.kept?, retain, Keyed.insertAll_cons]

theorem gather_hosts (results : List TaskResult) :
    (gather results).hosts = (arrivals results).filterMap (·.ends.host?) := by
  simpa [gather] using (foldl_add (arrivals results) ⟨[], [], .empty⟩).1

theorem gather_retained (results : List TaskResult) :
    (gather results).retained = .ofEntries ((arrivals results).filterMap (·.ends.kept?)) :=
  (foldl_add (arrivals results) ⟨[], [], .empty⟩).2

theorem arrivals_perm (results : List TaskResult) : (arrivals results).Perm results :=
  List.mergeSort_perm ..

def hostsOf : Except NoHosts Collected → List Host
  | .ok c => c.hosts
  | .error _ => []

def retainedOf : Except NoHosts Collected → Keyed Metrics
  | .ok c => c.retained
  | .error e => e.retained

theorem hostsOf_conclude (table : Table) (c : Collected) : hostsOf (conclude table c) = c.hosts := by
  unfold conclude
  split
  · next hempty => exact (List.isEmpty_iff.mp hempty).symm
  · rfl

theorem retainedOf_conclude (table : Table) (c : Collected) :
    retainedOf (conclude table c) = c.retained := by
  unfold conclude
  split <;> rfl

namespace Collector

variable (c : Collector) (s : Surroundings) (table : Table) (carried : Keyed Metrics)

def ends (a : Address) : TaskEnd :=
  (collectHost (c.context s a) table a (c.startingMetrics carried a)).ends

theorem tasks_filterMap {β : Type} (leaves : TaskEnd → Option β) (addresses : List Address) :
    (c.tasks s table addresses carried).filterMap (fun r => leaves r.ends) =
      (distinctAddresses addresses).filterMap fun a => leaves (c.ends s table carried a) := by
  rw [tasks, List.filterMap_map]
  rfl

def built (addresses : List Address) : List Host :=
  (distinctAddresses addresses).filterMap fun a => (c.ends s table carried a).host?

theorem hostsOf_collect_perm (addresses : List Address) :
    (hostsOf (c.collect s table addresses carried)).Perm (c.built s table carried addresses) := by
  unfold built
  rw [collect, hostsOf_conclude, gather_hosts, ← tasks_filterMap]
  exact (arrivals_perm _).filterMap _

variable {c s table carried}

/-- A task starts with fresh metrics, or with what was carried under its key. -/
theorem startingMetrics_cases (c : Collector) (carried : Keyed Metrics) (a : Address) :
    c.startingMetrics carried a = .new c.window ∨
      (a.key, c.startingMetrics carried a) ∈ carried.entries := by
  unfold startingMetrics
  cases hget : carried.get? a.key with
  | none => exact .inl rfl
  | some m => exact .inr (Keyed.mem_of_get? hget)

/-- A host of a collection was built by the task of an address. -/
theorem built_of_mem_hosts {addresses : List Address} {host : Host}
    (h : host ∈ hostsOf (c.collect s table addresses carried)) :
    ∃ a ∈ distinctAddresses addresses, (c.ends s table carried a).host? = some host :=
  List.mem_filterMap.mp ((c.hostsOf_collect_perm s table carried addresses).mem_iff.mp h)

theorem ends_taskEnds (a : Address) :
    TaskEnds (c.context s a) table a (c.startingMetrics carried a) (c.ends s table carried a) :=
  collectHost_ends ..

/-- A host that a task leaves is the one it started with, after the samples of its calls. -/
theorem ends_host {a : Address} {host : Host} (h : (c.ends s table carried a).host? = some host) :
    (Host.fresh table a (c.startingMetrics carried a)).Continues host
      ((c.context s a).samples table a) := by
  have hends : TaskEnds _ table a _ (c.ends s table carried a) := c.ends_taskEnds a
  generalize c.ends s table carried a = ends at hends h
  cases hends with
  | built built urls continues =>
    cases h
    exact continues
  | _ => cases h

/-- A host of a collection was built by the task of its own address. -/
theorem ends_of_mem_hosts {addresses : List Address} {host : Host}
    (h : host ∈ hostsOf (c.collect s table addresses carried)) :
    host.address ∈ distinctAddresses addresses ∧
      c.ends s table carried host.address = .built host := by
  obtain ⟨a, ha, hbuilt⟩ := built_of_mem_hosts h
  obtain rfl : host.address = a := (ends_host hbuilt).address
  exact ⟨ha, TaskEnd.host?_eq_some.mp hbuilt⟩

/-- What a task gives back is what it started with. -/
theorem ends_kept {a : Address} {kept : String × Metrics}
    (h : (c.ends s table carried a).kept? = some kept) :
    kept = (a.key, (c.startingMetrics carried a).carryForward) := by
  have hends : TaskEnds _ table a _ (c.ends s table carried a) := c.ends_taskEnds a
  generalize c.ends s table carried a = ends at hends h
  cases hends with
  | failed e urls nothing own =>
    cases h
    rfl
  | _ => cases h

/-- The hosts under the key of an address are what its task has left. -/
theorem collect_hosts_key {addresses : List Address} {a : Address}
    (ha : a ∈ distinctAddresses addresses) :
    (hostsOf (c.collect s table addresses carried)).filter (·.key = a.key) =
      (c.ends s table carried a).host?.toList := by
  apply eq_toList_of_perm
  rw [← filter_filterMap_key (fun a _ h => congrArg Address.key (ends_host h).address)
    (nodup_distinctAddresses addresses) ha]
  exact (c.hostsOf_collect_perm s table carried addresses).filter _

/-- What is retained under the key of an address is what its task has given back. -/
theorem collect_retained_key {addresses : List Address} {a : Address}
    (ha : a ∈ distinctAddresses addresses) :
    (retainedOf (c.collect s table addresses carried)).get? a.key =
      (c.ends s table carried a).kept?.map (·.2) := by
  rw [collect, retainedOf_conclude, gather_retained, Keyed.get?_ofEntries]
  have hkept : ((arrivals (c.tasks s table addresses carried)).filterMap (·.ends.kept?)).filter
      (·.1 = a.key) = (c.ends s table carried a).kept?.toList := by
    apply eq_toList_of_perm
    rw [← filter_filterMap_key (fun a _ h => congrArg Prod.fst (ends_kept h))
      (nodup_distinctAddresses addresses) ha, ← tasks_filterMap]
    exact ((arrivals_perm _).filterMap _).filter _
  rw [hkept]
  cases (c.ends s table carried a).kept? <;> rfl

end Collector

/-- Exactly one host has the key and nothing is retained under it, or no host has it and the
windows are retained. -/
def KeptOnce (result : Except NoHosts Collected) (key : String) (windows : RateWindows) : Prop :=
  ((∃ host, (hostsOf result).filter (·.key = key) = [host]) ∧ (retainedOf result).get? key = none) ∨
    ((hostsOf result).filter (·.key = key) = [] ∧
      ∃ kept, (retainedOf result).get? key = some kept ∧ kept.windows = windows)

/-- What was carried for an address is kept in one place, unless its task dies: then it is
kept in none. -/
theorem collect_keeps_carried {c : Collector} {s : Surroundings} {table : Table} {names : HostNames}
    {addresses : List Address} {carried : Keyed Metrics}
    (hconfigured : ∀ a ∈ addresses, a.Configured (readUrl names)) {a : Address} (ha : a ∈ addresses) (urls : a.HasUrls table) {m : Metrics}
    (hcarried : carried.get? a.key = some m) :
    (c.ends s table carried a ≠ .died →
        KeptOnce (c.collect s table addresses carried) a.key m.windows) ∧
      (c.ends s table carried a = .died →
        (hostsOf (c.collect s table addresses carried)).filter (·.key = a.key) = [] ∧
          (retainedOf (c.collect s table addresses carried)).get? a.key = none) := by
  have hdistinct := (mem_distinctAddresses hconfigured).mpr ha
  unfold KeptOnce
  rw [c.collect_hosts_key hdistinct, c.collect_retained_key hdistinct]
  have hstart : c.startingMetrics carried a = m := by simp [Collector.startingMetrics, hcarried]
  have hends : TaskEnds (c.context s a) table a m (c.ends s table carried a) :=
    hstart ▸ c.ends_taskEnds a
  generalize c.ends s table carried a = ends at hends ⊢
  cases hends with
  | unaddressed missing urls' => exact absurd urls urls'
  | failed e urls nothing own =>
    refine ⟨fun _ => .inr ⟨rfl, m.carryForward, rfl, m.windows_carryForward⟩, by rintro ⟨⟩⟩
  | built host urls continues => exact ⟨fun _ => .inl ⟨⟨host, rfl⟩, rfl⟩, by rintro ⟨⟩⟩
  | died urls => exact ⟨fun h => absurd rfl h, fun _ => ⟨rfl, rfl⟩⟩

def loneEndpoint : Address := ⟨"10.0.0.1", some 9000, none, none, none, false⟩

theorem loneEndpoint_configured (urls : List Char → Except UrlError Url) :
    loneEndpoint.Configured urls := by
  have hread : Address.parse urls "10.0.0.1" = .ok ⟨"10.0.0.1", none, none, none, none, false⟩ :=
    rfl
  exact (Address.Configured.parsed hread).rpcPort 9000

theorem loneEndpoint_hasUrls : loneEndpoint.HasUrls .rpc :=
  ⟨fun _ => ⟨_, rfl⟩, by rintro ⟨⟩⟩

def twoSamples : Metrics := .ofWindows ((RateWindows.new 5).feed [(.transactions, 10), (.transactions, 20)])

def carriedSamples : Keyed Metrics := .ofEntries [(loneEndpoint.key, twoSamples)]

theorem carriedSamples_lone : carriedSamples.get? loneEndpoint.key = some twoSamples := by
  simp [carriedSamples, Keyed.get?_ofEntries]

def plainCollector : Collector := ⟨.disabled, 1000, 5⟩

def sameReply (reply : Reply Json) : Surroundings where
  gateways _ := {
    rpc := fun _ _ => reply
    scrape := fun _ _ => .never
    locate := fun _ => .never
    resolve := fun _ => none }
  now := ⟨0⟩
  cancelled := false

/-- An endpoint that never answers keeps its samples. -/
theorem silent_endpoint_keeps_samples :
    KeptOnce (plainCollector.collect (sameReply .never) .rpc [loneEndpoint] carriedSamples)
      loneEndpoint.key ((RateWindows.new 5).feed [(.transactions, 10), (.transactions, 20)]) := by
  have hconfigured : ∀ a ∈ [loneEndpoint], a.Configured (readUrl asciiNames) := fun a ha =>
    List.mem_singleton.mp ha ▸ loneEndpoint_configured _
  refine (collect_keeps_carried hconfigured (List.mem_singleton.mpr rfl) loneEndpoint_hasUrls
    carriedSamples_lone).1 fun hdied => ?_
  have hkept : ((plainCollector.ends (sameReply .never) .rpc carriedSamples loneEndpoint).kept?).isSome
      = true := by decide
  rw [hdied] at hkept
  cases hkept

/-- A call that takes down the task of an address loses what was carried for it. -/
theorem fatal_call_loses_carried :
    ¬∀ (c : Collector) (s : Surroundings) (table : Table) (addresses : List Address)
        (carried : Keyed Metrics) (a : Address) (m : Metrics),
      (∀ a ∈ addresses, a.Configured (readUrl asciiNames)) → a ∈ addresses → a.HasUrls table →
        carried.get? a.key = some m → KeptOnce (c.collect s table addresses carried) a.key m.windows := by
  intro h
  have hkept := h plainCollector (sameReply .fatal) .rpc [loneEndpoint] carriedSamples loneEndpoint
    twoSamples (fun a ha => List.mem_singleton.mp ha ▸ loneEndpoint_configured _)
    (List.mem_singleton.mpr rfl) loneEndpoint_hasUrls carriedSamples_lone
  have hdistinct : loneEndpoint ∈ distinctAddresses [loneEndpoint] := List.mem_singleton.mpr rfl
  unfold KeptOnce at hkept
  rw [Collector.collect_hosts_key hdistinct, Collector.collect_retained_key hdistinct] at hkept
  rcases hkept with ⟨⟨host, hhost⟩, -⟩ | ⟨-, kept, hkept, -⟩
  · cases hhost
  · cases hkept

end FleetHealth.Fleet
