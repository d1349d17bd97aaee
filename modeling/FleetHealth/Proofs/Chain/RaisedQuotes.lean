import FleetHealth.Proofs.Chain.PriceStatistics

/-! # Raised quotes

Validators that raise their quotes, and keep their stakes and their powers, lower no figure
of the statistics. Sorting puts the quotes into other places, so the figures that depend on
it are compared by counting: as many quotes as before, or fewer, lie up to any bound.
-/
namespace FleetHealth.Chain

open Number

/-- The second validator has the power and the stake of the first, and bids no less. -/
structure Raises (field : PriceField) (v v' : Validator) : Prop where
  power : v'.power = v.power
  stake : v'.stake = v.stake
  price : ∀ price price', field.read v = .ok price → field.read v' = .ok price' → price ≤ price'

structure Quote.Raises (q q' : Quote) : Prop where
  price : q.price ≤ q'.price
  stake : q'.stake = q.stake
  power : q'.power = q.power

structure GasStatistics.AtMost (stats stats' : GasStatistics) : Prop where
  min : stats.min ≤ stats'.min
  max : stats.max ≤ stats'.max
  mean : stats.mean ≤ stats'.mean
  median : stats.median ≤ stats'.median
  stakeWeightedMean : stats.stakeWeightedMean ≤ stats'.stakeWeightedMean
  estimatedNext : stats.estimatedNext ≤ stats'.estimatedNext

variable {field : PriceField} {vs vs' : List Validator} {quotes quotes' : List Quote}

theorem Raises.refl (field : PriceField) (v : Validator) : Raises field v v := by
  refine ⟨rfl, rfl, fun price price' h h' => ?_⟩
  rw [h, Except.ok.injEq] at h'
  exact h'.le

theorem Raises.quote {v v' : Validator} {q q' : Quote} (h : Raises field v v')
    (hq : Quotes field v q) (hq' : Quotes field v' q') : q.Raises q' where
  price := h.price _ _ hq.price hq'.price
  stake := Except.ok.inj (hq'.stake.symm.trans (h.stake.trans hq.stake))
  power := Except.ok.inj (hq'.power.symm.trans (h.power.trans hq.power))

theorem raised_quotes (hraised : List.Forall₂ (Raises field) vs vs')
    (hread : List.Forall₂ (Quotes field) vs quotes)
    (hread' : List.Forall₂ (Quotes field) vs' quotes') : List.Forall₂ Quote.Raises quotes quotes' := by
  induction hraised generalizing quotes quotes' with
  | nil =>
    cases hread
    cases hread'
    exact .nil
  | cons hv _ ih =>
    cases hread with
    | cons hq hread =>
      cases hread' with
      | cons hq' hread' => exact .cons (hv.quote hq hq') (ih hread hread')

/-! ## Position by position -/

section Values

variable {ps ps' : List Nat} (h : List.Forall₂ (· ≤ ·) ps ps')
include h

theorem exists_above {p : Nat} (hp : p ∈ ps) : ∃ p' ∈ ps', p ≤ p' := by
  induction h with
  | nil => cases hp
  | cons hle _ ih =>
    rcases List.mem_cons.mp hp with rfl | hp
    · exact ⟨_, List.mem_cons_self, hle⟩
    · obtain ⟨p', hmem, hle⟩ := ih hp
      exact ⟨p', List.mem_cons_of_mem _ hmem, hle⟩

theorem exists_below {p' : Nat} (hp' : p' ∈ ps') : ∃ p ∈ ps, p ≤ p' := by
  induction h with
  | nil => cases hp'
  | cons hle _ ih =>
    rcases List.mem_cons.mp hp' with rfl | hp'
    · exact ⟨_, List.mem_cons_self, hle⟩
    · obtain ⟨p, hmem, hle⟩ := ih hp'
      exact ⟨p, List.mem_cons_of_mem _ hmem, hle⟩

theorem countP_le_of_raised (bound : Nat) : ps'.countP (· ≤ bound) ≤ ps.countP (· ≤ bound) := by
  induction h with
  | nil => exact Nat.le_refl _
  | cons hle _ ih =>
    simp only [List.countP_cons, decide_eq_true_eq]
    split <;> split <;> omega

end Values

/-- In ascending order a value is within a bound when more values are than precede it. -/
theorem getElem_le_iff {ascending : List Nat} (h : ascending.Pairwise (· ≤ ·)) {i : Nat}
    (hi : i < ascending.length) (bound : Nat) :
    ascending[i] ≤ bound ↔ i < ascending.countP (· ≤ bound) := by
  have hsplit : ascending.countP (· ≤ bound) =
      (ascending.take i).countP (· ≤ bound) + (ascending.drop i).countP (· ≤ bound) := by
    rw [← List.countP_append, List.take_append_drop]
  have hcross : ∀ a ∈ ascending.take i, a ≤ ascending[i] := by
    have hparts : (ascending.take i ++ ascending.drop i).Pairwise (· ≤ ·) := by
      rwa [List.take_append_drop]
    intro a ha
    apply (List.pairwise_append.mp hparts).2.2 a ha
    rw [List.drop_eq_getElem_cons hi]
    exact List.mem_cons_self
  have hrest : ∀ b ∈ ascending.drop i, ascending[i] ≤ b := by
    have hdrop : (ascending.drop i).Pairwise (· ≤ ·) := h.drop
    rw [List.drop_eq_getElem_cons hi] at hdrop ⊢
    intro b hb
    rcases List.mem_cons.mp hb with rfl | hb
    · exact Nat.le_refl _
    · exact (List.pairwise_cons.mp hdrop).1 b hb
  constructor
  · intro hle
    have hfront : (ascending.take i).countP (· ≤ bound) = i := by
      rw [List.countP_eq_length.mpr fun a ha => decide_eq_true ((hcross a ha).trans hle),
        List.length_take, Nat.min_eq_left hi.le]
    have hback : 0 < (ascending.drop i).countP (· ≤ bound) := by
      rw [List.countP_pos_iff, List.drop_eq_getElem_cons hi]
      exact ⟨_, List.mem_cons_self, decide_eq_true hle⟩
    omega
  · intro hcount
    by_contra hgt
    have hback : (ascending.drop i).countP (· ≤ bound) = 0 := by
      rw [List.countP_eq_zero]
      intro b hb
      have := hrest b hb
      simp only [decide_eq_true_eq]
      omega
    have hfront : (ascending.take i).countP (· ≤ bound) ≤ i :=
      List.countP_le_length.trans (List.length_take_le i _)
    omega

/-- The values in ascending order are raised place by place. -/
theorem ascending_le {ps ps' ascending ascending' : List Nat} (h : List.Forall₂ (· ≤ ·) ps ps')
    (hperm : ascending.Perm ps) (hperm' : ascending'.Perm ps')
    (hascending : ascending.Pairwise (· ≤ ·)) (hascending' : ascending'.Pairwise (· ≤ ·))
    {i : Nat} (hi : i < ascending.length) (hi' : i < ascending'.length) :
    ascending[i] ≤ ascending'[i] := by
  have hcount := (getElem_le_iff hascending' hi' ascending'[i]).mp (Nat.le_refl ascending'[i])
  rw [hperm'.countP_eq] at hcount
  rw [getElem_le_iff hascending hi, hperm.countP_eq]
  exact hcount.trans_le (countP_le_of_raised h _)

theorem IsMiddle.mono {ascending ascending' : List Nat} {value value' : Nat}
    (h : IsMiddle ascending value) (h' : IsMiddle ascending' value') (hne : ascending ≠ [])
    (hlength : ascending.length = ascending'.length)
    (hle : ∀ i (hi : i < ascending.length) (hi' : i < ascending'.length),
      ascending[i] ≤ ascending'[i]) : value ≤ value' := by
  have hplace : ∀ {i a a' : Nat}, ascending[i]? = some a → ascending'[i]? = some a' → a ≤ a' := by
    intro i a a' ha ha'
    obtain ⟨hi, rfl⟩ := List.getElem?_eq_some_iff.mp ha
    obtain ⟨hi', rfl⟩ := List.getElem?_eq_some_iff.mp ha'
    exact hle i hi hi'
  have hne' : ascending' ≠ [] := by
    rwa [ne_eq, ← List.length_eq_zero_iff, ← hlength, List.length_eq_zero_iff]
  rcases Nat.mod_two_eq_zero_or_one ascending.length with heven | hodd
  · obtain ⟨low, high, hlow, hhigh, rfl⟩ := h.even hne heven
    obtain ⟨low', high', hlow', hhigh', rfl⟩ := h'.even hne' (hlength ▸ heven)
    rw [← hlength] at hlow' hhigh'
    have := hplace hlow hlow'
    have := hplace hhigh hhigh'
    omega
  · have hmiddle := h.odd hodd
    have hmiddle' := h'.odd (hlength ▸ hodd)
    rw [← hlength] at hmiddle'
    exact hplace hmiddle hmiddle'

theorem raised_median {ps ps' : List Nat} {value value' : Nat} (hne : ps ≠ [])
    (h : List.Forall₂ (· ≤ ·) ps ps')
    (hmedian : ∀ ascending : List Nat, ascending.Perm ps → ascending.Pairwise (· ≤ ·) →
      IsMiddle ascending value)
    (hmedian' : ∀ ascending : List Nat, ascending.Perm ps' → ascending.Pairwise (· ≤ ·) →
      IsMiddle ascending value') : value ≤ value' := by
  have hperm := List.mergeSort_perm ps (· ≤ ·)
  have hperm' := List.mergeSort_perm ps' (· ≤ ·)
  have hsorted : (ps.mergeSort (· ≤ ·)).Pairwise (· ≤ ·) := List.pairwise_mergeSort' (· ≤ ·) _
  have hsorted' : (ps'.mergeSort (· ≤ ·)).Pairwise (· ≤ ·) := List.pairwise_mergeSort' (· ≤ ·) _
  apply (hmedian _ hperm hsorted).mono (hmedian' _ hperm' hsorted')
  · rwa [ne_eq, ← List.length_eq_zero_iff, List.length_mergeSort, List.length_eq_zero_iff]
  · rw [hperm.length_eq, hperm'.length_eq, h.length_eq]
  · exact fun i hi hi' => ascending_le h hperm hperm' hsorted hsorted' hi hi'

/-! ## Bids up to a price -/

def Outbids (bid bid' : Nat × Nat) : Prop := bid.1 ≤ bid'.1 ∧ bid'.2 = bid.2

section Bids

variable {bids bids' : List (Nat × Nat)} (h : List.Forall₂ Outbids bids bids')
include h

theorem totalPower_of_outbid : totalPower bids' = totalPower bids := by
  have hpowers : bids'.map (·.2) = bids.map (·.2) := by
    induction h with
    | nil => rfl
    | cons hbid _ ih => rw [List.map_cons, List.map_cons, hbid.2, ih]
  rw [totalPower, totalPower, hpowers]

/-- Power moves to higher prices only. -/
theorem powerUpTo_of_outbid (price : Nat) : powerUpTo bids' price ≤ powerUpTo bids price := by
  have hcons : ∀ bid rest, totalPower (bid :: rest) = bid.2 + totalPower rest := fun _ _ => rfl
  induction h with
  | nil => exact Nat.le_refl _
  | @cons bid bid' _ _ hbid _ ih =>
    have hprice := hbid.1
    have hpower := hbid.2
    unfold powerUpTo at ih ⊢
    simp only [List.filter_cons, decide_eq_true_eq]
    split <;> split <;> simp only [hcons] at * <;> omega

theorem outbid_prices : List.Forall₂ (· ≤ ·) (bids.map (·.1)) (bids'.map (·.1)) := by
  rw [List.forall₂_map_left_iff, List.forall₂_map_right_iff]
  exact h.imp fun _ _ hbid => hbid.1

theorem IsQuorumPrice.mono {price price' : Nat} (hquorum : IsQuorumPrice bids price)
    (hquorum' : IsQuorumPrice bids' price') : price ≤ price' := by
  by_cases hempty : bids = []
  · rw [hquorum.unbid hempty]
    exact Nat.zero_le _
  · have hempty' : bids' ≠ [] := by
      rintro rfl
      exact hempty (List.forall₂_nil_right_iff.mp h)
    have htotal := totalPower_of_outbid h
    rcases Nat.lt_or_ge (totalPower bids) quorum with hless | hreached
    · obtain ⟨higher, hmem, hle⟩ := exists_above (outbid_prices h) (hquorum.isBid hempty)
      exact hle.trans ((hquorum'.greatest hempty' (htotal ▸ hless)).2 hmem)
    · -- the bids up to the new price had a quorum already
      have hupTo := ((hquorum'.least (htotal ▸ hreached)).1.2).trans (powerUpTo_of_outbid h price')
      by_contra hlt
      have hbelow := powerUpTo_le_powerBelow (Nat.lt_of_not_le hlt) bids
      have := hquorum.below
      omega

end Bids

/-! ## Raised statistics -/

section Figures

variable (h : List.Forall₂ Quote.Raises quotes quotes')
include h

theorem raised_prices : List.Forall₂ (· ≤ ·) (quotes.map (·.price)) (quotes'.map (·.price)) := by
  rw [List.forall₂_map_left_iff, List.forall₂_map_right_iff]
  exact h.imp fun _ _ hq => hq.price

theorem raised_stakes : quotes'.map (·.stake) = quotes.map (·.stake) := by
  induction h with
  | nil => rfl
  | cons hq _ ih => rw [List.map_cons, List.map_cons, hq.stake, ih]

theorem raised_products : List.Forall₂ (· ≤ ·) (quotes.map fun q => q.price * q.stake)
    (quotes'.map fun q => q.price * q.stake) := by
  rw [List.forall₂_map_left_iff, List.forall₂_map_right_iff]
  exact h.imp fun q q' hq => hq.stake ▸ Nat.mul_le_mul_right q.stake hq.price

theorem raised_bids : List.Forall₂ Outbids (quotes.map (·.bid)) (quotes'.map (·.bid)) := by
  rw [List.forall₂_map_left_iff, List.forall₂_map_right_iff]
  exact h.imp fun _ _ hq => ⟨hq.price, hq.power⟩

theorem ExactStatistics.mono {stats stats' : GasStatistics} (hexact : ExactStatistics quotes stats)
    (hexact' : ExactStatistics quotes' stats') : stats.AtMost stats' := by
  rcases eq_or_ne quotes [] with hempty | hne
  · rw [hexact.unquoted hempty]
    constructor <;> exact Nat.zero_le _
  · have hne' : quotes' ≠ [] := by
      rintro rfl
      exact hne (List.forall₂_nil_right_iff.mp h)
    have hprices := raised_prices h
    have hstakes := raised_stakes h
    constructor
    · obtain ⟨price, hmem, hle⟩ := exists_below hprices (hexact'.min hne').1
      exact ((hexact.min hne).2 hmem).trans hle
    · obtain ⟨price', hmem, hle⟩ := exists_above hprices (hexact.max hne).1
      exact hle.trans ((hexact'.max hne').2 hmem)
    · rw [hexact.mean hne, hexact'.mean hne', ← h.length_eq]
      exact Nat.div_le_div_right hprices.sum_le_sum
    · exact raised_median (by simpa using hne) hprices hexact.median hexact'.median
    · rw [(hexact.stakeWeightedMean hne).2, (hexact'.stakeWeightedMean hne').2, hstakes]
      exact Nat.div_le_div_right (raised_products h).sum_le_sum
    · exact IsQuorumPrice.mono (raised_bids h) hexact.estimatedNext hexact'.estimatedNext

end Figures

theorem Quotes.raised {v v' : Validator} {q : Quote} {price' : Nat} (h : Quotes field v q)
    (hraised : Raises field v v') (hprice' : field.read v' = .ok price') :
    Quotes field v' { q with price := price' } :=
  ⟨hprice', hraised.stake.trans h.stake, hraised.power.trans h.power⟩

/-- One validator among others raises its quote. -/
theorem forall₂_set {α β : Type} {R : α → β → Prop} {xs : List α} {ys : List β} {x : α} {y : β}
    (h : List.Forall₂ R xs ys) (i : Nat) (hxy : R x y) : List.Forall₂ R (xs.set i x) (ys.set i y) := by
  induction h generalizing i with
  | nil => exact .nil
  | cons hfirst hrest ih =>
    cases i with
    | zero => exact .cons hxy hrest
    | succ i => exact .cons hfirst (ih i)

/-- Raised quotes lower no figure, whichever validators raise them. A validator that raises its
own does not keep the statistics from being computed either. As in every list that memory can
hold, the number of validators fits into a word. -/
theorem gasStatistics_mono {stats : GasStatistics} (hcount : vs.length < 2 ^ 64)
    (h : gasStatistics vs field = .ok stats) :
    (∀ vs' stats', List.Forall₂ (Raises field) vs vs' → gasStatistics vs' field = .ok stats' →
      stats.AtMost stats') ∧
    ∀ i v v' price', vs[i]? = some v → Raises field v v' → field.read v' = .ok price' →
      ∃ stats', gasStatistics (vs.set i v') field = .ok stats' ∧ stats.AtMost stats' := by
  obtain ⟨quotes, hread⟩ := quotes_of_ok h
  have hexact := exactStatistics (withinWords hcount hread) hread h
  have hmono : ∀ vs' stats', List.Forall₂ (Raises field) vs vs' →
      gasStatistics vs' field = .ok stats' → stats.AtMost stats' := by
    intro vs' stats' hraised h'
    obtain ⟨quotes', hread'⟩ := quotes_of_ok h'
    have hwords' := withinWords (hraised.length_eq ▸ hcount) hread'
    exact ExactStatistics.mono (raised_quotes hraised hread hread') hexact
      (exactStatistics hwords' hread' h')
  refine ⟨hmono, ?_⟩
  intro i v v' price' hv hraised hprice'
  obtain ⟨hi, rfl⟩ := List.getElem?_eq_some_iff.mp hv
  have hraisedAll : List.Forall₂ (Raises field) vs (vs.set i v') := by
    have hsame : List.Forall₂ (Raises field) vs vs := List.forall₂_same.mpr fun v _ => .refl field v
    have hset := forall₂_set hsame i hraised
    rwa [List.set_getElem_self] at hset
  have hquote := (hread.get hi (hread.length_eq ▸ hi)).raised hraised hprice'
  have hread' := forall₂_set hread i hquote
  have hstake : 0 < sumOf (quotes.map (·.stake)) := by
    refine (hexact.stakeWeightedMean ?_).1
    rintro rfl
    rw [List.forall₂_nil_right_iff.mp hread] at hi
    cases hi
  obtain ⟨stats', h'⟩ := exists_gasStatistics (by rwa [List.length_set]) hread' fun _ => by
    rwa [raised_stakes (raised_quotes hraisedAll hread hread')]
  exact ⟨stats', h', hmono _ _ hraisedAll h'⟩

def staker (price stake power : String) : Validator :=
  ⟨"0x1", "", power, "1", price, stake, "", "", "", "", "", ""⟩

def threeStakers (price : String) : List Validator :=
  [staker price "10" "3000", staker "700" "10" "3667", staker "900" "20" "3333"]

theorem threeStakers_raise :
    Raises .nextEpoch (staker "500" "10" "3000") (staker "1000" "10" "3000") := by
  refine ⟨rfl, rfl, fun price price' h h' => ?_⟩
  have hlow : PriceField.nextEpoch.read (staker "500" "10" "3000") = .ok 500 := rfl
  have hhigh : PriceField.nextEpoch.read (staker "1000" "10" "3000") = .ok 1000 := rfl
  rw [hlow, Except.ok.injEq] at h
  rw [hhigh, Except.ok.injEq] at h'
  omega

/-- The lowest bidder overtakes the two others, which moves the median and the estimate. -/
theorem overtaking_bid_lowers_nothing : (threeStakers "500").length < 2 ^ 64 ∧
    gasStatistics (threeStakers "500") .nextEpoch = .ok ⟨500, 900, 700, 700, 750, 700⟩ ∧
    gasStatistics (threeStakers "1000") .nextEpoch = .ok ⟨700, 1000, 866, 900, 875, 900⟩ ∧
    GasStatistics.AtMost ⟨500, 900, 700, 700, 750, 700⟩ ⟨700, 1000, 866, 900, 875, 900⟩ ∧
    ∃ stats, gasStatistics ((threeStakers "500").set 0 (staker "1000" "10" "3000")) .nextEpoch =
        .ok stats ∧ GasStatistics.AtMost ⟨500, 900, 700, 700, 750, 700⟩ stats := by
  have hcount : (threeStakers "500").length < 2 ^ 64 := by decide
  have hlow : gasStatistics (threeStakers "500") .nextEpoch = .ok ⟨500, 900, 700, 700, 750, 700⟩ := by
    cbv
  have hhigh : gasStatistics (threeStakers "1000") .nextEpoch =
      .ok ⟨700, 1000, 866, 900, 875, 900⟩ := by
    cbv
  obtain ⟨hmono, hset⟩ := gasStatistics_mono hcount hlow
  have hraised : List.Forall₂ (Raises .nextEpoch) (threeStakers "500") (threeStakers "1000") :=
    .cons threeStakers_raise (.cons (.refl _ _) (.cons (.refl _ _) .nil))
  exact ⟨hcount, hlow, hhigh, hmono _ _ hraised hhigh, hset 0 _ _ 1000 rfl threeStakers_raise rfl⟩

end FleetHealth.Chain
