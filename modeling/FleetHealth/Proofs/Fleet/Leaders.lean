import FleetHealth.Proofs.Fleet.Grading
import Mathlib.Data.List.Induction

/-! # The choice of the reference

The leaders of a table are its eligible hosts that no eligible host is ahead of. They tie:
all have the same checkpoint and the same transactions. The reference is the last of them,
so its progress does not depend on the order of the hosts, but among several leaders the
order decides which one it is.
-/
namespace FleetHealth.Fleet

theorem notAhead_iff {a b : Metrics} : notAhead a b = true ↔
    a.latestCheckpoint < b.latestCheckpoint ∨ a.latestCheckpoint = b.latestCheckpoint ∧
      a.totalTransactionBlocks ≤ b.totalTransactionBlocks := by
  simp [notAhead]

theorem notAhead_refl (a : Metrics) : notAhead a a = true :=
  notAhead_iff.mpr (.inr ⟨rfl, Nat.le_refl _⟩)

theorem notAhead_trans {a b c : Metrics} (hab : notAhead a b = true) (hbc : notAhead b c = true) :
    notAhead a c = true := by
  rw [notAhead_iff] at hab hbc ⊢
  omega

theorem notAhead_of_ahead {a b : Metrics} (h : notAhead a b = false) : notAhead b a = true := by
  have hnot : ¬notAhead a b = true := by simp [h]
  rw [notAhead_iff] at hnot ⊢
  omega

/-- The best of a list is not behind those before it, and ahead of those after it. -/
theorem foldl_betterOf_split {hosts : List (Nat × Host)} (h : hosts ≠ []) :
    ∃ front best back, hosts = front ++ best :: back ∧
      hosts.foldl betterOf none = some best ∧
      (∀ x ∈ front, notAhead x.2.metrics best.2.metrics = true) ∧
      ∀ x ∈ back, notAhead best.2.metrics x.2.metrics = false := by
  -- The last host either takes the lead or is behind the best of those before it.
  induction hosts using List.reverseRecOn with
  | nil => contradiction
  | append_singleton hosts next ih =>
    rw [List.foldl_append, List.foldl_cons, List.foldl_nil]
    by_cases hnone : hosts = []
    · subst hnone
      exact ⟨[], next, [], rfl, rfl, by simp, by simp⟩
    · obtain ⟨front, best, back, hhosts, hbest, hfront, hback⟩ := ih hnone
      rw [hbest, betterOf]
      cases hbetter : notAhead best.2.metrics next.2.metrics with
      | false =>
        refine ⟨front, best, back ++ [next], by simp [hhosts], rfl, hfront, ?_⟩
        intro x hx
        rcases List.mem_append.mp hx with hx | hx
        · exact hback x hx
        · rw [List.mem_singleton.mp hx]
          exact hbetter
      | true =>
        refine ⟨hosts, next, [], rfl, rfl, ?_, by simp⟩
        intro x hx
        rw [hhosts] at hx
        rcases List.mem_append.mp hx with hx | hx
        · exact notAhead_trans (hfront x hx) hbetter
        · rcases List.mem_cons.mp hx with rfl | hx
          · exact hbetter
          · exact notAhead_trans (notAhead_of_ahead (hback x hx)) hbetter

def leaders (hosts : List Host) : List Host :=
  (hosts.filter isEligible).filter fun h =>
    (hosts.filter isEligible).all fun other => notAhead other.metrics h.metrics

theorem mem_leaders {hosts : List Host} {h : Host} : h ∈ leaders hosts ↔
    h ∈ hosts ∧ isEligible h = true ∧
      ∀ other ∈ hosts, isEligible other = true → notAhead other.metrics h.metrics = true := by
  simp only [leaders, List.mem_filter, List.all_eq_true, and_imp, and_assoc]

theorem leaders_tie {hosts : List Host} {a b : Host} (ha : a ∈ leaders hosts)
    (hb : b ∈ leaders hosts) : a.metrics.Ties b.metrics := by
  obtain ⟨hmem, heligible, hlead⟩ := mem_leaders.mp ha
  obtain ⟨hmem', heligible', hlead'⟩ := mem_leaders.mp hb
  have hab := notAhead_iff.mp (hlead' a hmem heligible)
  have hba := notAhead_iff.mp (hlead b hmem' heligible')
  constructor <;> omega

theorem leaders_perm {xs ys : List Host} (h : xs.Perm ys) : (leaders xs).Perm (leaders ys) := by
  have heligible := h.filter isEligible
  have hsame : ∀ host : Host, (xs.filter isEligible).all (fun other => notAhead other.metrics host.metrics) =
      (ys.filter isEligible).all fun other => notAhead other.metrics host.metrics :=
    fun host => heligible.all_eq
  unfold leaders
  simp only [hsame]
  exact heligible.filter _

/-- Whatever keeps the counters keeps the leaders. -/
theorem leaders_map {f : Host → Host} (heligible : ∀ h, isEligible (f h) = isEligible h)
    (hties : ∀ h, (f h).metrics.Ties h.metrics) (hosts : List Host) :
    leaders (hosts.map f) = (leaders hosts).map f := by
  have hnotAhead : ∀ a b, notAhead (f a).metrics (f b).metrics = notAhead a.metrics b.metrics := by
    intro a b
    simp only [notAhead, (hties a).checkpoint, (hties a).transactions, (hties b).checkpoint,
      (hties b).transactions]
  have hfilter : (hosts.map f).filter isEligible = (hosts.filter isEligible).map f := by
    rw [List.filter_map]
    exact congrArg _ (List.filter_congr fun h _ => heligible h)
  unfold leaders
  rw [hfilter, List.filter_map]
  refine congrArg _ (List.filter_congr fun h _ => ?_)
  simp only [Function.comp_apply, List.all_map, Function.comp_def, hnotAhead]

theorem map_snd_candidates (hosts : List Host) (n : Nat) :
    ((hosts.zipIdx n).filterMap fun h =>
      if isEligible h.1 then some (h.2, h.1) else none).map (·.2) = hosts.filter isEligible := by
  induction hosts generalizing n with
  | nil => rfl
  | cons host rest ih =>
    rw [List.zipIdx_cons, List.filterMap_cons]
    by_cases heligible : isEligible host = true
    · simp [heligible, ih]
    · simp [heligible, ih]

/-- The reference is the last of the leaders. -/
theorem bestHost_eq_getLast? (hosts : List Host) :
    (bestHost hosts).map (·.2) = (leaders hosts).getLast? := by
  have hcandidates := map_snd_candidates hosts 0
  unfold bestHost leaders
  generalize hosts.zipIdx.filterMap (fun h => if isEligible h.1 then some (h.2, h.1) else none) =
    candidates at hcandidates ⊢
  rw [← hcandidates]
  by_cases hnone : candidates = []
  · subst hnone
    rfl
  · obtain ⟨front, best, back, rfl, hbest, hfront, hback⟩ := foldl_betterOf_split hnone
    have hleads : ∀ x ∈ front ++ best :: back, notAhead x.2.metrics best.2.metrics = true := by
      intro x hx
      rcases List.mem_append.mp hx with hx | hx
      · exact hfront x hx
      · rcases List.mem_cons.mp hx with rfl | hx
        · exact notAhead_refl _
        · exact notAhead_of_ahead (hback x hx)
    -- What comes after the best does not lead, so the best is the last that does.
    have hbehind : (back.map (·.2)).filter (fun h => ((front ++ best :: back).map (·.2)).all
        fun other => notAhead other.metrics h.metrics) = [] := by
      rw [List.filter_eq_nil_iff]
      intro h hh hall
      obtain ⟨x, hx, rfl⟩ := List.mem_map.mp hh
      have hnotAhead := List.all_eq_true.mp hall best.2 (by simp)
      rw [hback x hx] at hnotAhead
      cases hnotAhead
    have hlead : ((front ++ best :: back).map (·.2)).all
        (fun other => notAhead other.metrics best.2.metrics) = true := by
      rw [List.all_eq_true]
      intro h hh
      obtain ⟨x, hx, rfl⟩ := List.mem_map.mp hh
      exact hleads x hx
    have hmap : (front ++ best :: back).map (·.2) =
        front.map (·.2) ++ best.2 :: back.map (·.2) := by simp
    rw [hbest]
    conv_rhs => rw [hmap]
    rw [List.filter_append, List.filter_cons_of_pos (by rw [← hmap]; exact hlead), ← hmap, hbehind]
    simp

theorem bestHost_leads {hosts : List Host} {best : Nat × Host} (h : bestHost hosts = some best) :
    best.2 ∈ leaders hosts := by
  have hlast := bestHost_eq_getLast? hosts
  rw [h] at hlast
  exact List.mem_of_getLast? hlast.symm

theorem bestHost_eq_none_iff {hosts : List Host} : bestHost hosts = none ↔ leaders hosts = [] := by
  rw [← Option.map_eq_none_iff (f := (·.2)), bestHost_eq_getLast?, List.getLast?_eq_none_iff]

end FleetHealth.Fleet
