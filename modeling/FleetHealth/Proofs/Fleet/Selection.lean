import FleetHealth.Proofs.Fleet.Leaders
import Mathlib.Data.Prod.Lex

/-! # The place of the reference

The reference is chosen by its place in the list of hosts. It is the one host that can lead, that
no host that can lead is ahead of, and that none after it is level with. Hosts that cannot lead
move its place but do not change which one it is, and no order of the hosts changes its progress.
-/
namespace FleetHealth.Fleet

/-- What a reference needs: values of this cycle, and both counters among them. -/
structure Host.CanLead (h : Host) : Prop where
  updated : h.metrics.updated = true
  checkpoint : h.metrics.latestCheckpoint ≠ 0
  transactions : h.metrics.totalTransactionBlocks ≠ 0

def Host.progress (h : Host) : Nat ×ₗ Nat :=
  toLex (h.metrics.latestCheckpoint, h.metrics.totalTransactionBlocks)

theorem isEligible_iff {h : Host} : isEligible h = true ↔ h.CanLead := by
  simp only [isEligible, Bool.and_eq_true, decide_eq_true_eq, Nat.pos_iff_ne_zero]
  exact ⟨fun ⟨⟨hupdated, hcheckpoint⟩, htransactions⟩ => ⟨hupdated, hcheckpoint, htransactions⟩,
    fun ⟨hupdated, hcheckpoint, htransactions⟩ => ⟨⟨hupdated, hcheckpoint⟩, htransactions⟩⟩

instance (h : Host) : Decidable h.CanLead := decidable_of_iff _ isEligible_iff

theorem notAhead_iff_progress_le {a b : Host} :
    notAhead a.metrics b.metrics = true ↔ a.progress ≤ b.progress := by
  rw [notAhead_iff, Host.progress, Host.progress, Prod.Lex.toLex_le_toLex]

theorem notAhead_eq_false_iff {a b : Host} :
    notAhead a.metrics b.metrics = false ↔ b.progress < a.progress := by
  rw [← Bool.not_eq_true, notAhead_iff_progress_le, not_le]

/-! ## Candidates -/

def candidates (hosts : List Host) : List (Nat × Host) :=
  hosts.zipIdx.filterMap fun h => if isEligible h.1 then some (h.2, h.1) else none

theorem bestHost_eq (hosts : List Host) : bestHost hosts = (candidates hosts).foldl betterOf none :=
  rfl

theorem mem_candidates {hosts : List Host} {i : Nat} {h : Host} :
    (i, h) ∈ candidates hosts ↔ hosts[i]? = some h ∧ h.CanLead := by
  simp only [candidates, List.mem_filterMap, Prod.exists, List.mem_zipIdx_iff_getElem?]
  constructor
  · rintro ⟨x, j, hx, hkept⟩
    split at hkept
    · next heligible =>
      cases hkept
      exact ⟨hx, isEligible_iff.mp heligible⟩
    · cases hkept
  · rintro ⟨hh, hlead⟩
    exact ⟨h, i, hh, by rw [if_pos (isEligible_iff.mpr hlead)]⟩

theorem candidates_ascending (hosts : List Host) :
    (candidates hosts).Pairwise fun a b => a.1 < b.1 := by
  have hplaces : hosts.zipIdx.Pairwise fun a b => a.2 < b.2 := by
    have hrange : (hosts.zipIdx.map (·.2)).Pairwise (· < ·) := by
      rw [List.zipIdx_map_snd]
      exact List.pairwise_lt_range'
    exact List.pairwise_map.mp hrange
  refine hplaces.filterMap _ fun a a' hlt b hb b' hb' => ?_
  split at hb <;> cases hb
  split at hb' <;> cases hb'
  exact hlt

/-! ## The place that is chosen -/

/-- The host at a place leads: it can, none is ahead of it, and none after it is level. -/
structure LeadsAt (hosts : List Host) (i : Nat) (h : Host) : Prop where
  stands : hosts[i]? = some h
  canLead : h.CanLead
  behind : ∀ other ∈ hosts, other.CanLead → ¬h.progress < other.progress
  last : ∀ j other, i < j → hosts[j]? = some other → other.CanLead → other.progress ≠ h.progress

variable {hosts : List Host}

theorem leadsAt_of_bestHost {best : Nat × Host} (h : bestHost hosts = some best) :
    LeadsAt hosts best.1 best.2 := by
  have hnonempty : candidates hosts ≠ [] := by
    intro hnone
    rw [bestHost_eq, hnone] at h
    cases h
  obtain ⟨front, found, back, hsplit, hfound, hfront, hback⟩ := foldl_betterOf_split hnonempty
  obtain rfl : found = best := Option.some.inj (hfound.symm.trans h)
  have hascending := candidates_ascending hosts
  rw [hsplit, List.pairwise_append] at hascending
  obtain ⟨-, -, hbefore⟩ := hascending
  have hplace : ∀ {j other}, hosts[j]? = some other → other.CanLead →
      (j, other) ∈ front ∨ (j, other) = found ∨ (j, other) ∈ back := by
    intro j other hother hlead
    have hmem := mem_candidates.mpr ⟨hother, hlead⟩
    rwa [hsplit, List.mem_append, List.mem_cons] at hmem
  obtain ⟨hstands, hcan⟩ := mem_candidates.mp (show (found.1, found.2) ∈ candidates hosts by
    rw [hsplit]
    simp)
  refine ⟨hstands, hcan, fun other hmem hlead => ?_, fun j other hj hother hlead => ?_⟩
  · obtain ⟨j, hj⟩ := List.mem_iff_getElem?.mp hmem
    rw [not_lt]
    rcases hplace hj hlead with hx | rfl | hx
    · exact notAhead_iff_progress_le.mp (hfront _ hx)
    · exact le_rfl
    · exact (notAhead_eq_false_iff.mp (hback _ hx)).le
  · rcases hplace hother hlead with hx | rfl | hx
    · exact absurd (hbefore _ hx found List.mem_cons_self) (Nat.lt_asymm hj)
    · exact absurd hj (Nat.lt_irrefl _)
    · exact (notAhead_eq_false_iff.mp (hback _ hx)).ne

/-- One host leads at most, for of two the one that stands first would be level with the other. -/
theorem LeadsAt.unique {i j : Nat} {h h' : Host} (hi : LeadsAt hosts i h) (hj : LeadsAt hosts j h') :
    i = j ∧ h = h' := by
  have hlevel : h.progress = h'.progress := le_antisymm
    (not_lt.mp (hj.behind h (List.mem_of_getElem? hi.stands) hi.canLead))
    (not_lt.mp (hi.behind h' (List.mem_of_getElem? hj.stands) hj.canLead))
  have hplace : i = j := by
    rcases Nat.lt_trichotomy i j with hlt | heq | hlt
    · exact absurd hlevel.symm (hi.last j h' hlt hj.stands hj.canLead)
    · exact heq
    · exact absurd hlevel (hj.last i h hlt hi.stands hi.canLead)
  subst hplace
  exact ⟨rfl, Option.some.inj (hi.stands.symm.trans hj.stands)⟩

theorem bestHost_eq_none_iff_canLead : bestHost hosts = none ↔ ∀ h ∈ hosts, ¬h.CanLead := by
  constructor
  · intro hnone h hmem hlead
    obtain ⟨i, hi⟩ := List.mem_iff_getElem?.mp hmem
    obtain ⟨front, best, back, -, hbest, -⟩ :=
      foldl_betterOf_split (List.ne_nil_of_mem (mem_candidates.mpr ⟨hi, hlead⟩))
    rw [bestHost_eq, hbest] at hnone
    cases hnone
  · intro hnone
    cases hbest : bestHost hosts with
    | none => rfl
    | some best =>
      have hleads := leadsAt_of_bestHost hbest
      exact absurd hleads.canLead (hnone _ (List.mem_of_getElem? hleads.stands))

theorem bestHost_eq_some_iff {i : Nat} {h : Host} :
    bestHost hosts = some (i, h) ↔ LeadsAt hosts i h := by
  refine ⟨leadsAt_of_bestHost, fun hleads => ?_⟩
  cases hbest : bestHost hosts with
  | none =>
    exact absurd hleads.canLead
      (bestHost_eq_none_iff_canLead.mp hbest h (List.mem_of_getElem? hleads.stands))
  | some best =>
    obtain ⟨rfl, rfl⟩ := (leadsAt_of_bestHost hbest).unique hleads
    rfl

/-! ## Hosts that cannot lead -/

/-- The host at a place, with the number of hosts before it that can lead. -/
def hostAt (hosts : List Host) (i : Nat) : Option (Nat × Host) :=
  hosts[i]?.map fun h => ((hosts.take i).countP (·.CanLead), h)

/-- The host that is selected, with its place among those that can lead. -/
def selectedHost (hosts : List Host) : Option (Nat × Host) := (selectReference hosts).bind (hostAt hosts)

theorem selectedHost_of_leadsAt {i : Nat} {h : Host} (hleads : LeadsAt hosts i h) :
    selectedHost hosts = some ((hosts.take i).countP (·.CanLead), h) := by
  rw [selectedHost, selectReference, bestHost_eq_some_iff.mpr hleads]
  simp [hostAt, hleads.stands]

theorem selectedHost_eq_none_iff : selectedHost hosts = none ↔ ∀ h ∈ hosts, ¬h.CanLead := by
  rw [← bestHost_eq_none_iff_canLead]
  cases hbest : bestHost hosts with
  | none => simp [selectedHost, selectReference, hbest]
  | some best => simp [selectedHost_of_leadsAt (leadsAt_of_bestHost hbest)]

theorem selectedHost_cases (hosts : List Host) :
    (∃ i h, LeadsAt hosts i h ∧ selectedHost hosts = some ((hosts.take i).countP (·.CanLead), h)) ∨
      (selectedHost hosts = none ∧ ∀ h ∈ hosts, ¬h.CanLead) := by
  cases hbest : bestHost hosts with
  | none =>
    have hnone := bestHost_eq_none_iff_canLead.mp hbest
    exact .inr ⟨selectedHost_eq_none_iff.mpr hnone, hnone⟩
  | some best =>
    have hleads := leadsAt_of_bestHost hbest
    exact .inl ⟨best.1, best.2, hleads, selectedHost_of_leadsAt hleads⟩

/-- Alone with the others that can lead, the host that leads does so in its place among these. -/
theorem LeadsAt.alone {i : Nat} {h : Host} (hleads : LeadsAt hosts i h) :
    LeadsAt (hosts.filter (·.CanLead)) ((hosts.take i).countP (·.CanLead)) h := by
  have hsplit : hosts = hosts.take i ++ h :: hosts.drop (i + 1) := by
    obtain ⟨hi, hh⟩ := List.getElem?_eq_some_iff.mp hleads.stands
    rw [← hh, List.getElem_cons_drop, List.take_append_drop]
  have hfilter : hosts.filter (·.CanLead) =
      (hosts.take i).filter (·.CanLead) ++ h :: (hosts.drop (i + 1)).filter (·.CanLead) := by
    conv_lhs => rw [hsplit]
    rw [List.filter_append, List.filter_cons_of_pos (by simpa using hleads.canLead)]
  rw [List.countP_eq_length_filter]
  refine ⟨?_, hleads.canLead, fun other hmem => hleads.behind other (List.mem_filter.mp hmem).1,
    fun j other hj hother => ?_⟩
  · rw [hfilter, List.getElem?_append_right (Nat.le_refl _), Nat.sub_self]
    rfl
  · -- what comes after it among those that can lead comes after it among all
    obtain ⟨k, rfl⟩ := Nat.exists_eq_add_of_lt hj
    rw [hfilter, List.getElem?_append_right (by omega), Nat.add_assoc, Nat.add_sub_cancel_left,
      List.getElem?_cons_succ] at hother
    have hmem := (List.mem_filter.mp (List.mem_of_getElem? hother)).1
    obtain ⟨n, hn⟩ := List.mem_iff_getElem?.mp hmem
    rw [List.getElem?_drop] at hn
    exact hleads.last (i + 1 + n) other (by omega) hn

/-- Where all can lead, a place among those that can is a place among all. -/
theorem countP_take_of_canLead {i : Nat} (hall : ∀ h ∈ hosts, h.CanLead) (hi : i < hosts.length) :
    (hosts.take i).countP (·.CanLead) = i := by
  rw [List.countP_eq_length.mpr fun h hmem => decide_eq_true (hall h (List.mem_of_mem_take hmem)),
    List.length_take_of_le hi.le]

theorem selectedHost_filter (hosts : List Host) :
    selectedHost (hosts.filter (·.CanLead)) = selectedHost hosts := by
  rcases selectedHost_cases hosts with ⟨i, h, hleads, hselected⟩ | ⟨hnone, hcannot⟩
  · have hplace := (List.getElem?_eq_some_iff.mp hleads.alone.stands).1
    rw [selectedHost_of_leadsAt hleads.alone, hselected,
      countP_take_of_canLead (fun h hmem => of_decide_eq_true (List.mem_filter.mp hmem).2) hplace]
  · rw [hnone, selectedHost_eq_none_iff]
    exact fun h hmem => hcannot h (List.mem_filter.mp hmem).1

theorem selectedHost_perm {hosts' : List Host} (h : hosts.Perm hosts') :
    (selectedHost hosts').map (·.2.progress) = (selectedHost hosts).map (·.2.progress) := by
  rcases selectedHost_cases hosts with ⟨i, host, hleads, hselected⟩ | ⟨hnone, hcannot⟩
  · rcases selectedHost_cases hosts' with ⟨i', host', hleads', hselected'⟩ | ⟨-, hcannot⟩
    · have hmem := h.mem_iff.mp (List.mem_of_getElem? hleads.stands)
      have hmem' := h.mem_iff.mpr (List.mem_of_getElem? hleads'.stands)
      have hlevel : host'.progress = host.progress := le_antisymm
        (not_lt.mp (hleads.behind host' hmem' hleads'.canLead))
        (not_lt.mp (hleads'.behind host hmem hleads.canLead))
      rw [hselected, hselected', Option.map_some, Option.map_some, hlevel]
    · exact absurd hleads.canLead (hcannot host (h.mem_iff.mp (List.mem_of_getElem? hleads.stands)))
  · rw [hnone, selectedHost_eq_none_iff.mpr fun host hmem => hcannot host (h.mem_iff.mpr hmem)]

/-- A reference is selected if any host can lead, and then it is the host that leads. Which one
it is follows from the hosts that can lead alone, and its progress not even from their order. -/
theorem reference_is_last_of_most_advanced (hosts : List Host) :
    (selectReference hosts = none ↔ ∀ h ∈ hosts, ¬h.CanLead) ∧
    (∀ i, selectReference hosts = some i ↔ ∃ h, LeadsAt hosts i h) ∧
    (∀ hosts' : List Host, hosts'.filter (·.CanLead) = hosts.filter (·.CanLead) →
      selectedHost hosts' = selectedHost hosts) ∧
    ∀ hosts' : List Host, hosts.Perm hosts' →
      (selectedHost hosts').map (·.2.progress) = (selectedHost hosts).map (·.2.progress) := by
  refine ⟨?_, fun i => ?_, fun hosts' hsame => ?_, fun hosts' => selectedHost_perm⟩
  · rw [← bestHost_eq_none_iff_canLead, selectReference, Option.map_eq_none_iff]
  · simp only [selectReference, Option.map_eq_some_iff, Prod.exists, bestHost_eq_some_iff]
    constructor
    · rintro ⟨_, h, hleads, rfl⟩
      exact ⟨h, hleads⟩
    · rintro ⟨h, hleads⟩
      exact ⟨i, h, hleads, rfl⟩
  · rw [← selectedHost_filter hosts', hsame, selectedHost_filter]

def countingHost (name : String) (updated : Bool) (checkpoint transactions : Nat) : Host where
  table := .rpc
  address := ⟨name, some 9000, none, none, none, false⟩
  rpcUrl := none
  metricsUrl := none
  status := .grey
  location := none
  metrics := { Metrics.new 5 with
    updated, latestCheckpoint := checkpoint, totalTransactionBlocks := transactions }
  errors := []

/-- Two hosts lead, between them stands one with more transactions but fewer checkpoints, and
the hosts with the highest checkpoints of all have not reported. -/
def mixedHosts : List Host :=
  [countingHost "10.0.0.1" true 7 100, countingHost "10.0.0.2" true 9 0,
   countingHost "10.0.0.3" true 6 900, countingHost "10.0.0.4" true 7 100,
   countingHost "10.0.0.5" false 8 100]

theorem later_of_level_hosts_is_selected :
    selectReference mixedHosts = some 3 ∧
    (selectedHost (mixedHosts.filter (·.CanLead))).map (·.2.address.host) = some "10.0.0.4" ∧
    (selectedHost mixedHosts.reverse).map (·.2.progress) = some (toLex (7, 100)) := by
  obtain ⟨-, -, halone, hperm⟩ := reference_is_last_of_most_advanced mixedHosts
  refine ⟨by decide, ?_, ?_⟩
  · rw [halone (mixedHosts.filter (·.CanLead)) (by simp)]
    decide
  · rw [hperm mixedHosts.reverse (List.reverse_perm mixedHosts).symm]
    decide

end FleetHealth.Fleet
