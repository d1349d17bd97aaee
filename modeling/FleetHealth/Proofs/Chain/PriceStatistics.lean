import FleetHealth.Proofs.Chain.QuorumPrice
import Mathlib.Algebra.BigOperators.Ring.List
import Mathlib.Data.List.Permutation
import Mathlib.Data.List.Sort

/-! # Exact price statistics

Quotes are summed up in 128 bits, quotes weighted with stakes in 256, and the results are
counters of 64 bits. With fewer validators than a counter counts nothing on the way to a mean
or the median is too large for its word. Powers are summed up in 64 bits, which may cut off the
sum that completes the quorum, but the price is found by then. So the statistics are those of
unbounded numbers, and each lies between the least and the greatest quote.
-/
namespace FleetHealth.Chain

open Number

structure Quote where
  price : Nat
  stake : Nat
  power : Nat
deriving DecidableEq, Repr

def Quote.bid (q : Quote) : Nat × Nat := (q.price, q.power)

def Quote.staked (q : Quote) : Nat × Nat := (q.price, q.stake)

structure Quotes (field : PriceField) (v : Validator) (q : Quote) : Prop where
  price : field.read v = .ok q.price
  stake : v.stake = .ok q.stake
  power : v.power = .ok q.power

/-! ## Reading -/

theorem Validator.readField_le {v : Validator} {bound n : Nat} {field raw : String}
    (h : v.readField bound field raw = .ok n) : n ≤ bound := by
  unfold Validator.readField at h
  split at h
  · next value hread =>
    cases h
    exact readUnsigned?_le hread
  · cases h

theorem PriceField.read_le {field : PriceField} {v : Validator} {n : Nat}
    (h : field.read v = .ok n) : n ≤ counterMax := by
  cases field with
  | current => exact Validator.readField_le h
  | nextEpoch => exact Validator.readField_le h

theorem priceAndStake_eq_ok {field : PriceField} {v : Validator} {quote : Nat × Nat} :
    priceAndStake field v = .ok quote ↔ field.read v = .ok quote.1 ∧ v.stake = .ok quote.2 := by
  unfold priceAndStake
  constructor
  · intro h
    obtain ⟨price, hprice, h⟩ := bind_eq_ok.mp h
    obtain ⟨stake, hstake, h⟩ := bind_eq_ok.mp h
    cases h
    exact ⟨hprice, hstake⟩
  · rintro ⟨hprice, hstake⟩
    exact bind_eq_ok.mpr ⟨quote.1, hprice, bind_eq_ok.mpr ⟨quote.2, hstake, rfl⟩⟩

variable {field : PriceField} {vs : List Validator} {quotes : List Quote}

/-- What was read for the weighted mean and for the estimate are the same quotes. -/
theorem exists_quotes {staked bids : List (Nat × Nat)}
    (hstaked : List.Forall₂ (fun v s => priceAndStake field v = .ok s) vs staked)
    (hbids : List.Forall₂ (Bids field) vs bids) : ∃ quotes, List.Forall₂ (Quotes field) vs quotes := by
  induction hstaked generalizing bids with
  | nil => exact ⟨[], .nil⟩
  | @cons v s vs staked hs _ ih =>
    cases hbids with
    | @cons _ bid _ _ hbid hrest =>
      obtain ⟨quotes, hquotes⟩ := ih hrest
      have hread := priceAndStake_eq_ok.mp hs
      exact ⟨⟨s.1, s.2, bid.2⟩ :: quotes, .cons ⟨hread.1, hread.2, hbid.power⟩ hquotes⟩

theorem prices_eq (h : List.Forall₂ (Quotes field) vs quotes) :
    prices vs field = .ok (quotes.map (·.price)) := by
  apply mapError_eq_ok.mpr
  rw [mapM_eq_ok, List.forall₂_map_right_iff]
  exact h.imp fun _ _ hq => hq.price

theorem Quotes.staked {v : Validator} {q : Quote} (h : Quotes field v q) :
    priceAndStake field v = .ok q.staked := priceAndStake_eq_ok.mpr ⟨h.price, h.stake⟩

theorem bids_eq (h : List.Forall₂ (Quotes field) vs quotes) :
    List.Forall₂ (Bids field) vs (quotes.map (·.bid)) := by
  rw [List.forall₂_map_right_iff]
  exact h.imp fun _ _ hq => ⟨hq.price, hq.power⟩

/-! ## Sums in words -/

theorem foldl_wrapAmount (ps : List Nat) (sum : Nat) (h : sum + sumOf ps ≤ amountMax) :
    ps.foldl (fun sum p => wrapAmount (sum + p)) sum = sum + sumOf ps := by
  induction ps generalizing sum with
  | nil => rfl
  | cons p rest ih =>
    have hcons : sumOf (p :: rest) = p + sumOf rest := rfl
    rw [hcons] at h ⊢
    have hheld : wrapAmount (sum + p) = sum + p := wrapAmount_of_le (by omega)
    rw [List.foldl_cons, hheld, ih (sum + p) (by omega)]
    omega

theorem heldSum_eq {ps : List Nat} (h : sumOf ps ≤ amountMax) : heldSum ps = sumOf ps := by
  have hfold := foldl_wrapAmount ps 0 (by rwa [Nat.zero_add])
  rwa [Nat.zero_add] at hfold

theorem StakeSums.foldl_add (quotes : List Quote) (sums : StakeSums)
    (hweighted : sums.weighted + sumOf (quotes.map fun q => q.price * q.stake) ≤ wideMax)
    (hstake : sums.stake + sumOf (quotes.map (·.stake)) ≤ wideMax) :
    (quotes.map (·.staked)).foldl StakeSums.add sums =
      ⟨sums.weighted + sumOf (quotes.map fun q => q.price * q.stake),
        sums.stake + sumOf (quotes.map (·.stake))⟩ := by
  induction quotes generalizing sums with
  | nil => rfl
  | cons q rest ih =>
    have hcons : ∀ f : Quote → Nat, sumOf ((q :: rest).map f) = f q + sumOf (rest.map f) :=
      fun _ => rfl
    rw [hcons] at hweighted hstake
    have hadd : sums.add q.staked = ⟨sums.weighted + q.price * q.stake, sums.stake + q.stake⟩ := by
      have hproduct : wrapWide (q.price * q.stake) = q.price * q.stake := wrapWide_of_le (by omega)
      simp only [StakeSums.add, Quote.staked, hproduct]
      rw [wrapWide_of_le (by omega), wrapWide_of_le (by omega)]
    rw [List.map_cons, List.foldl_cons, hadd, ih _ (by dsimp only; omega) (by dsimp only; omega)]
    simp only [hcons, Nat.add_assoc]

/-- Whatever is summed up, multiplied or converted on the way to the means and the median fits
into the word it is held in. Sums are held for every part of the validators that has been
walked. -/
structure WithinWords (quotes : List Quote) : Prop where
  count : quotes.length ≤ counterMax
  sums : ∀ part, part <+: quotes → sumOf (part.map (·.price)) ≤ amountMax
  pairs : ∀ a ∈ quotes, ∀ b ∈ quotes, a.price + b.price ≤ amountMax
  products : ∀ q ∈ quotes, q.price * q.stake ≤ wideMax
  weightedSums : ∀ part, part <+: quotes → sumOf (part.map fun q => q.price * q.stake) ≤ wideMax
  stakeSums : ∀ part, part <+: quotes → sumOf (part.map (·.stake)) ≤ wideMax
  mean : sumOf (quotes.map (·.price)) / quotes.length ≤ counterMax
  halves : ∀ a ∈ quotes, ∀ b ∈ quotes, (a.price + b.price) / 2 ≤ counterMax
  weightedMean : sumOf (quotes.map fun q => q.price * q.stake) / sumOf (quotes.map (·.stake)) ≤
    counterMax

theorem WithinWords.ofQuotes_eq (hwords : WithinWords quotes) :
    StakeSums.ofQuotes (quotes.map (·.staked)) =
      ⟨sumOf (quotes.map fun q => q.price * q.stake), sumOf (quotes.map (·.stake))⟩ := by
  have hwhole := List.prefix_refl quotes
  have hfold := StakeSums.foldl_add quotes ⟨0, 0⟩
    (by simpa using hwords.weightedSums quotes hwhole)
    (by simpa using hwords.stakeSums quotes hwhole)
  simpa [StakeSums.ofQuotes] using hfold

/-! ## Means between bounds -/

section Bounds

variable {low high : Nat}

theorem mean_le (h : ∀ q ∈ quotes, q.price ≤ high) :
    sumOf (quotes.map (·.price)) / quotes.length ≤ high := by
  have hsum : sumOf (quotes.map (·.price)) ≤ (quotes.map (·.price)).length * high := by
    apply List.sum_le_card_nsmul
    simpa using h
  rw [List.length_map] at hsum
  exact Nat.div_le_of_le_mul hsum

theorem le_mean (hpos : quotes ≠ []) (h : ∀ q ∈ quotes, low ≤ q.price) :
    low ≤ sumOf (quotes.map (·.price)) / quotes.length := by
  have hsum : (quotes.map (·.price)).length * low ≤ sumOf (quotes.map (·.price)) := by
    apply List.card_nsmul_le_sum
    simpa using h
  rw [List.length_map, Nat.mul_comm] at hsum
  rwa [Nat.le_div_iff_mul_le (List.length_pos_iff.mpr hpos)]

theorem weightedSum_const (price : Nat) (quotes : List Quote) :
    sumOf (quotes.map fun q => price * q.stake) = price * sumOf (quotes.map (·.stake)) :=
  List.sum_map_mul_left quotes (·.stake) price

theorem weightedMean_le (h : ∀ q ∈ quotes, q.price ≤ high) :
    sumOf (quotes.map fun q => q.price * q.stake) / sumOf (quotes.map (·.stake)) ≤ high := by
  apply Nat.div_le_of_le_mul
  rw [Nat.mul_comm, ← weightedSum_const]
  apply List.sum_le_sum
  intro q hq
  exact Nat.mul_le_mul_right q.stake (h q hq)

theorem le_weightedMean (hstake : 0 < sumOf (quotes.map (·.stake)))
    (h : ∀ q ∈ quotes, low ≤ q.price) :
    low ≤ sumOf (quotes.map fun q => q.price * q.stake) / sumOf (quotes.map (·.stake)) := by
  rw [Nat.le_div_iff_mul_le hstake, ← weightedSum_const]
  apply List.sum_le_sum
  intro q hq
  exact Nat.mul_le_mul_right q.stake (h q hq)

end Bounds

/-! ## The middle of the quotes -/

/-- The value in the middle of a list in ascending order; of an even number of values half the
sum of the two in the middle, rounded down. -/
structure IsMiddle (ascending : List Nat) (value : Nat) : Prop where
  odd : ascending.length % 2 = 1 → ascending[ascending.length / 2]? = some value
  even : ascending ≠ [] → ascending.length % 2 = 0 → ∃ low high,
    ascending[ascending.length / 2 - 1]? = some low ∧ ascending[ascending.length / 2]? = some high ∧
      value = (low + high) / 2

theorem getElem?_eq_getD {ps : List Nat} {i : Nat} (h : i < ps.length) :
    ps[i]? = some (ps.getD i 0) := by
  simp [List.getD_eq_getElem?_getD, h]

theorem isMiddle_middle {ascending : List Nat} (h : ∀ p ∈ ascending, p ≤ counterMax) :
    IsMiddle ascending (middle ascending) := by
  have hle : ∀ i < ascending.length, ascending.getD i 0 ≤ counterMax :=
    fun i hi => h _ (List.mem_of_getElem? (getElem?_eq_getD hi))
  constructor
  · intro hodd
    have hvalue : middle ascending = ascending.getD (ascending.length / 2) 0 := by
      simp [middle, hodd]
    rw [hvalue]
    exact getElem?_eq_getD (by omega)
  · intro hne heven
    have hpos := List.length_pos_iff.mpr hne
    have hlow : ascending.length / 2 - 1 < ascending.length := by omega
    have hhigh : ascending.length / 2 < ascending.length := by omega
    refine ⟨_, _, getElem?_eq_getD hlow, getElem?_eq_getD hhigh, ?_⟩
    have hsum := Nat.add_le_add (hle _ hlow) (hle _ hhigh)
    simp only [middle, heven, if_true]
    rw [wrapAmount_of_le (hsum.trans (by decide)), wrapCounter_of_le]
    omega

theorem IsMiddle.bounds {ascending : List Nat} {value low high : Nat} (h : IsMiddle ascending value)
    (hne : ascending ≠ []) (hlow : ∀ p ∈ ascending, low ≤ p) (hhigh : ∀ p ∈ ascending, p ≤ high) :
    low ≤ value ∧ value ≤ high := by
  rcases Nat.mod_two_eq_zero_or_one ascending.length with heven | hodd
  · obtain ⟨a, b, ha, hb, rfl⟩ := h.even hne heven
    have hamem := List.mem_of_getElem? ha
    have hbmem := List.mem_of_getElem? hb
    have := hlow a hamem
    have := hlow b hbmem
    have := hhigh a hamem
    have := hhigh b hbmem
    omega
  · have hmem := List.mem_of_getElem? (h.odd hodd)
    exact ⟨hlow _ hmem, hhigh _ hmem⟩

/-! ## All statistics -/

/-- The statistics over numbers without bounds. -/
structure ExactStatistics (quotes : List Quote) (stats : GasStatistics) : Prop where
  unquoted : quotes = [] → stats = ⟨0, 0, 0, 0, 0, 0⟩
  min : quotes ≠ [] → IsLeast {p | p ∈ quotes.map (·.price)} stats.min
  max : quotes ≠ [] → IsGreatest {p | p ∈ quotes.map (·.price)} stats.max
  mean : quotes ≠ [] → stats.mean = sumOf (quotes.map (·.price)) / quotes.length
  median : ∀ ascending : List Nat, ascending.Perm (quotes.map (·.price)) →
    ascending.Pairwise (· ≤ ·) → IsMiddle ascending stats.median
  stakeWeightedMean : quotes ≠ [] → 0 < sumOf (quotes.map (·.stake)) ∧ stats.stakeWeightedMean =
    sumOf (quotes.map fun q => q.price * q.stake) / sumOf (quotes.map (·.stake))
  estimatedNext : IsQuorumPrice (quotes.map (·.bid)) stats.estimatedNext

variable {stats : GasStatistics}

theorem gasStatistics_ok (h : gasStatistics vs field = .ok stats) :
    minPrice vs field = .ok stats.min ∧ maxPrice vs field = .ok stats.max ∧
      meanPrice vs field = .ok stats.mean ∧ medianPrice vs field = .ok stats.median ∧
      stakeWeightedMeanPrice vs field = .ok stats.stakeWeightedMean ∧
      estimatedNextPrice vs field = .ok stats.estimatedNext := by
  unfold gasStatistics at h
  obtain ⟨min, hmin, h⟩ := bind_eq_ok.mp h
  obtain ⟨max, hmax, h⟩ := bind_eq_ok.mp h
  obtain ⟨mean, hmean, h⟩ := bind_eq_ok.mp h
  obtain ⟨median, hmedian, h⟩ := bind_eq_ok.mp h
  obtain ⟨weighted, hweighted, h⟩ := bind_eq_ok.mp h
  obtain ⟨estimate, hestimate, h⟩ := bind_eq_ok.mp h
  cases h
  exact ⟨hmin, hmax, hmean, hmedian, hweighted, hestimate⟩

/-- Statistics that were computed had all their quotes read. -/
theorem quotes_of_ok (h : gasStatistics vs field = .ok stats) :
    ∃ quotes, List.Forall₂ (Quotes field) vs quotes := by
  obtain ⟨-, -, -, -, hweighted, hestimate⟩ := gasStatistics_ok h
  obtain ⟨staked, hstaked, -⟩ := bind_eq_ok.mp hweighted
  obtain ⟨bids, hbids, -⟩ := bind_eq_ok.mp hestimate
  apply exists_quotes (mapM_eq_ok.mp (mapError_eq_ok.mp hstaked))
  exact (mapM_eq_ok.mp (mapError_eq_ok.mp hbids)).imp fun _ _ => priceAndPower_eq_ok.mp

theorem staked_le (h : List.Forall₂ (fun v q => priceAndStake field v = .ok q.staked) vs quotes) :
    ∀ q ∈ quotes, q.price ≤ counterMax ∧ q.stake ≤ amountMax := by
  induction h with
  | nil => exact fun _ hq => nomatch hq
  | cons hv _ ih =>
    have hread := priceAndStake_eq_ok.mp hv
    rw [List.forall_mem_cons]
    exact ⟨⟨PriceField.read_le hread.1, Validator.readField_le hread.2⟩, ih⟩

theorem quotes_le (h : List.Forall₂ (Quotes field) vs quotes) :
    ∀ q ∈ quotes, q.price ≤ counterMax ∧ q.stake ≤ amountMax :=
  staked_le (h.imp fun _ _ hq => hq.staked)

theorem withinWords_of_le (hlength : quotes.length ≤ counterMax)
    (hle : ∀ q ∈ quotes, q.price ≤ counterMax ∧ q.stake ≤ amountMax) : WithinWords quotes := by
  have hprice : ∀ q ∈ quotes, q.price ≤ counterMax := fun q hq => (hle q hq).1
  have hstake : ∀ q ∈ quotes, q.stake ≤ amountMax := fun q hq => (hle q hq).2
  have hproduct : ∀ q ∈ quotes, q.price * q.stake ≤ counterMax * amountMax :=
    fun q hq => Nat.mul_le_mul (hprice q hq) (hstake q hq)
  have hpart : ∀ {f : Quote → Nat} {bound : Nat}, (∀ q ∈ quotes, f q ≤ bound) →
      ∀ part, part <+: quotes → sumOf (part.map f) ≤ counterMax * bound := by
    intro f bound hf part hpart
    apply sumOf_le_of_count
    · rw [List.length_map]
      exact hpart.length_le.trans hlength
    · intro x hx
      obtain ⟨q, hq, rfl⟩ := List.mem_map.mp hx
      exact hf q (hpart.subset hq)
  constructor
  · exact hlength
  · exact fun part hprefix => (hpart hprice part hprefix).trans (by decide)
  · exact fun a ha b hb => (Nat.add_le_add (hprice a ha) (hprice b hb)).trans (by decide)
  · exact fun q hq => (hproduct q hq).trans (by decide)
  · exact fun part hprefix => (hpart hproduct part hprefix).trans (by decide)
  · exact fun part hprefix => (hpart hstake part hprefix).trans (by decide)
  · exact mean_le hprice
  · intro a ha b hb
    have := hprice a ha
    have := hprice b hb
    omega
  · exact weightedMean_le hprice

theorem withinWords (hcount : vs.length < 2 ^ 64) (h : List.Forall₂ (Quotes field) vs quotes) :
    WithinWords quotes := by
  apply withinWords_of_le
  · rw [← h.length_eq]
    exact Nat.le_of_lt_succ hcount
  · exact quotes_le h

/-- The weighted mean needs quotes and stakes, but no powers. -/
theorem stakeWeightedMeanPrice_eq (hwords : WithinWords quotes)
    (h : List.Forall₂ (fun v q => priceAndStake field v = .ok q.staked) vs quotes) :
    stakeWeightedMeanPrice vs field =
      if quotes = [] then .ok 0
      else if sumOf (quotes.map (·.stake)) = 0 then .error (.zeroTotalStake quotes.length)
      else .ok (sumOf (quotes.map fun q => q.price * q.stake) / sumOf (quotes.map (·.stake))) := by
  have hstaked : (vs.mapM (priceAndStake field)).mapError GasError.validator =
      .ok (quotes.map (·.staked)) := by
    apply mapError_eq_ok.mpr
    rwa [mapM_eq_ok, List.forall₂_map_right_iff]
  unfold stakeWeightedMeanPrice
  rw [hstaked]
  simp only [bind, Except.bind, hwords.ofQuotes_eq, List.map_eq_nil_iff, List.length_map,
    capCounter_of_le hwords.weightedMean]

theorem exists_weightedMean (hwords : WithinWords quotes)
    (h : List.Forall₂ (fun v q => priceAndStake field v = .ok q.staked) vs quotes)
    (hstake : quotes ≠ [] → 0 < sumOf (quotes.map (·.stake))) :
    ∃ mean, stakeWeightedMeanPrice vs field = .ok mean := by
  rw [stakeWeightedMeanPrice_eq hwords h]
  split
  · exact ⟨0, rfl⟩
  · next hne =>
    rw [if_neg (hstake hne).ne']
    exact ⟨_, rfl⟩

section Figures

variable (h : List.Forall₂ (Quotes field) vs quotes) {price : Nat}
include h

theorem isLeast_minPrice (hne : quotes ≠ []) (hmin : minPrice vs field = .ok price) :
    IsLeast {p | p ∈ quotes.map (·.price)} price := by
  rw [minPrice, prices_eq h] at hmin
  rw [← Except.ok.inj hmin]
  cases hleast : (quotes.map (·.price)).min? with
  | none => simp [hne] at hleast
  | some least =>
    obtain ⟨hmem, hle⟩ := List.min?_eq_some_iff.mp hleast
    dsimp only
    rw [hleast]
    exact ⟨hmem, hle⟩

theorem isGreatest_maxPrice (hne : quotes ≠ []) (hmax : maxPrice vs field = .ok price) :
    IsGreatest {p | p ∈ quotes.map (·.price)} price := by
  rw [maxPrice, prices_eq h] at hmax
  rw [← Except.ok.inj hmax]
  cases hgreatest : (quotes.map (·.price)).max? with
  | none => simp [hne] at hgreatest
  | some greatest =>
    obtain ⟨hmem, hle⟩ := List.max?_eq_some_iff.mp hgreatest
    dsimp only
    rw [hgreatest]
    exact ⟨hmem, hle⟩

theorem meanPrice_eq (hwords : WithinWords quotes) : meanPrice vs field =
    .ok (sumOf (quotes.map (·.price)) / quotes.length) := by
  have hsum := heldSum_eq (hwords.sums quotes (List.prefix_refl quotes))
  rw [meanPrice, prices_eq h]
  simp only [Except.map, hsum, List.length_map, wrapCounter_of_le hwords.mean]

theorem isMiddle_medianPrice (hmedian : medianPrice vs field = .ok price) {ascending : List Nat}
    (hperm : ascending.Perm (quotes.map (·.price))) (hascending : ascending.Pairwise (· ≤ ·)) :
    IsMiddle ascending price := by
  have hsorted : (quotes.map (·.price)).mergeSort (· ≤ ·) = ascending := by
    apply List.Perm.eq_of_pairwise (fun a b _ _ hab hba => Nat.le_antisymm hab hba)
    · exact List.pairwise_mergeSort' (· ≤ ·) _
    · exact hascending
    · exact (List.mergeSort_perm _ _).trans hperm.symm
  have hprice : middle ascending = price := by
    rw [medianPrice, prices_eq h] at hmedian
    rw [← hsorted]
    exact Except.ok.inj hmedian
  rw [← hprice]
  apply isMiddle_middle
  intro p hp
  obtain ⟨q, hq, rfl⟩ := List.mem_map.mp (hperm.subset hp)
  exact (quotes_le h q hq).1

theorem stakeWeightedMeanPrice_ok (hwords : WithinWords quotes) (hne : quotes ≠ [])
    (hweighted : stakeWeightedMeanPrice vs field = .ok price) :
    0 < sumOf (quotes.map (·.stake)) ∧
      price = sumOf (quotes.map fun q => q.price * q.stake) / sumOf (quotes.map (·.stake)) := by
  rw [stakeWeightedMeanPrice_eq hwords (h.imp fun _ _ hq => hq.staked), if_neg hne] at hweighted
  split at hweighted
  · cases hweighted
  · next hstake => exact ⟨Nat.pos_of_ne_zero hstake, (Except.ok.inj hweighted).symm⟩

end Figures

theorem gasStatistics_nil (field : PriceField) :
    gasStatistics [] field = .ok ⟨0, 0, 0, 0, 0, 0⟩ := by
  cbv

/-- Statistics are there for quotes of which some have a stake. -/
theorem exists_gasStatistics (hcount : vs.length < 2 ^ 64) (hread : List.Forall₂ (Quotes field) vs quotes)
    (hstake : quotes ≠ [] → 0 < sumOf (quotes.map (·.stake))) :
    ∃ stats, gasStatistics vs field = .ok stats := by
  obtain ⟨mean, hweighted⟩ := exists_weightedMean (withinWords hcount hread)
    (hread.imp fun _ _ hq => hq.staked) hstake
  unfold gasStatistics minPrice maxPrice meanPrice medianPrice
  rw [prices_eq hread, hweighted, estimatedNextPrice_eq (bids_eq hread)]
  exact ⟨_, rfl⟩

theorem exactStatistics (hwords : WithinWords quotes) (hread : List.Forall₂ (Quotes field) vs quotes)
    (h : gasStatistics vs field = .ok stats) : ExactStatistics quotes stats := by
  obtain ⟨hmin, hmax, hmean, hmedian, hweighted, hestimate⟩ := gasStatistics_ok h
  constructor
  · rintro rfl
    cases hread
    rw [gasStatistics_nil] at h
    exact (Except.ok.inj h).symm
  · exact fun hne => isLeast_minPrice hread hne hmin
  · exact fun hne => isGreatest_maxPrice hread hne hmax
  · intro _
    rw [meanPrice_eq hread hwords] at hmean
    exact (Except.ok.inj hmean).symm
  · exact fun _ hperm hascending => isMiddle_medianPrice hread hmedian hperm hascending
  · exact fun hne => stakeWeightedMeanPrice_ok hread hwords hne hweighted
  · have hbids := bids_eq hread
    rw [estimatedNextPrice_eq hbids] at hestimate
    rw [← Except.ok.inj hestimate]
    exact isQuorumPrice_mergeSort _

/-- Every figure lies between the least and the greatest quote. -/
theorem ExactStatistics.ordered (h : ExactStatistics quotes stats) :
    ∀ figure ∈ [stats.mean, stats.median, stats.stakeWeightedMean, stats.estimatedNext],
      stats.min ≤ figure ∧ figure ≤ stats.max := by
  rcases eq_or_ne quotes [] with hempty | hne
  · rw [h.unquoted hempty]
    simp
  · have hleast : ∀ q ∈ quotes, stats.min ≤ q.price :=
      fun q hq => (h.min hne).2 (List.mem_map_of_mem hq)
    have hgreatest : ∀ q ∈ quotes, q.price ≤ stats.max :=
      fun q hq => (h.max hne).2 (List.mem_map_of_mem hq)
    obtain ⟨hstake, hweighted⟩ := h.stakeWeightedMean hne
    have hmedian : stats.min ≤ stats.median ∧ stats.median ≤ stats.max := by
      have hsorted := List.mergeSort_perm (quotes.map (·.price)) (· ≤ ·)
      apply (h.median _ hsorted (List.pairwise_mergeSort' (· ≤ ·) _)).bounds
      · rw [ne_eq, ← List.length_eq_zero_iff, List.length_mergeSort]
        simpa using hne
      · exact fun p hp => (h.min hne).2 (hsorted.subset hp)
      · exact fun p hp => (h.max hne).2 (hsorted.subset hp)
    have hestimate : stats.estimatedNext ∈ quotes.map (·.price) := by
      have hbid := h.estimatedNext.isBid (by simpa using hne)
      rwa [List.map_map] at hbid
    intro figure hfigure
    simp only [List.mem_cons, List.not_mem_nil, or_false] at hfigure
    rcases hfigure with rfl | rfl | rfl | rfl
    · rw [h.mean hne]
      exact ⟨le_mean hne hleast, mean_le hgreatest⟩
    · exact hmedian
    · rw [hweighted]
      exact ⟨le_weightedMean hstake hleast, weightedMean_le hgreatest⟩
    · exact ⟨(h.min hne).2 hestimate, (h.max hne).2 hestimate⟩

def ascendingBids (quotes : List Quote) : List (Nat × Nat) :=
  (quotes.map (·.bid)).mergeSort fun a b => a.1 ≤ b.1

theorem estimatedNext_eq_walked (hread : List.Forall₂ (Quotes field) vs quotes)
    (h : gasStatistics vs field = .ok stats) :
    stats.estimatedNext = ((walked (ascendingBids quotes) 0).map (·.1)).getLastD 0 := by
  obtain ⟨-, -, -, -, -, hestimate⟩ := gasStatistics_ok h
  rw [estimatedNextPrice_eq (bids_eq hread)] at hestimate
  rw [← quorumPrice_eq_walked, quorumPrice_eq_exact]
  exact (Except.ok.inj hestimate).symm

/-- Statistics of fewer than `2 ^ 64` validators are exact, although the walk to the estimate may
cut off the sum that ends it. -/
theorem gasStatistics_exact (hcount : vs.length < 2 ^ 64) (h : gasStatistics vs field = .ok stats) :
    ∃ quotes, List.Forall₂ (Quotes field) vs quotes ∧ WithinWords quotes ∧
      WalksToQuorum (ascendingBids quotes) 0 ∧
      stats.estimatedNext = ((walked (ascendingBids quotes) 0).map (·.1)).getLastD 0 ∧
      ExactStatistics quotes stats ∧
      ∀ figure ∈ [stats.mean, stats.median, stats.stakeWeightedMean, stats.estimatedNext],
        stats.min ≤ figure ∧ figure ≤ stats.max := by
  obtain ⟨quotes, hread⟩ := quotes_of_ok h
  have hwords := withinWords hcount hread
  have hwalks : WalksToQuorum (ascendingBids quotes) 0 := walksToQuorum _ (by decide)
  have hexact := exactStatistics hwords hread h
  exact ⟨quotes, hread, hwords, hwalks, estimatedNext_eq_walked hread h, hexact, hexact.ordered⟩

def vastQuotes : List Quote := [⟨750, 1, 18446744073709551615⟩, ⟨500, 1, 6666⟩, ⟨750, 1, 0⟩]

theorem vastBidders_quote : List.Forall₂ (Quotes .nextEpoch) vastBidders vastQuotes :=
  .cons ⟨by rfl, by rfl, by rfl⟩ (.cons ⟨by rfl, by rfl, by rfl⟩ (.cons ⟨by rfl, by rfl, by rfl⟩ .nil))

/-- Statistics are there, but the walk adds all a counter can hold to what lacks one vote. -/
theorem vast_bid_is_cut_off :
    ¬∀ (vs : List Validator) (field : PriceField) (stats : GasStatistics) (quotes : List Quote),
      vs.length < 2 ^ 64 → gasStatistics vs field = .ok stats →
        List.Forall₂ (Quotes field) vs quotes → ∀ part, part <+: walked (ascendingBids quotes) 0 →
          heldPower 0 part = totalPower part := by
  intro h
  obtain ⟨stats, hstats⟩ := exists_gasStatistics (by decide) vastBidders_quote fun _ => by decide
  have hwalked : walked (ascendingBids vastQuotes) 0 = [(500, 6666), (750, 18446744073709551615)] := by
    cbv
  have hheld := h vastBidders .nextEpoch stats vastQuotes (by decide) hstats vastBidders_quote _
    (List.prefix_refl _)
  rw [hwalked] at hheld
  revert hheld
  decide

/-- Two quotes and stakes that are as large as they can be, and one that hardly counts. -/
def heavyStakers : List Validator :=
  let staker := fun price stake power : String =>
    (⟨"0x1", "", power, "1", price, stake, "", "", "", "", "", ""⟩ : Validator)
  [staker "18446744073709551615" "340282366920938463463374607431768211455" "5000",
   staker "18446744073709551615" "340282366920938463463374607431768211455" "5000",
   staker "1" "7" "1"]

def heavyStatistics : GasStatistics where
  min := 1
  max := 18446744073709551615
  mean := 12297829382473034410
  median := 18446744073709551615
  stakeWeightedMean := 18446744073709551614
  estimatedNext := 18446744073709551615

theorem heavy_stakes_weigh_exactly : heavyStakers.length < 2 ^ 64 ∧
    gasStatistics heavyStakers .nextEpoch = .ok heavyStatistics ∧
    ∃ quotes, List.Forall₂ (Quotes .nextEpoch) heavyStakers quotes ∧ WithinWords quotes ∧
      WalksToQuorum (ascendingBids quotes) 0 ∧ ExactStatistics quotes heavyStatistics := by
  have hcount : heavyStakers.length < 2 ^ 64 := by decide
  have hstatistics : gasStatistics heavyStakers .nextEpoch = .ok heavyStatistics := by
    cbv
  obtain ⟨quotes, hread, hwords, hwalks, -, hexact, -⟩ := gasStatistics_exact hcount hstatistics
  exact ⟨hcount, hstatistics, quotes, hread, hwords, hwalks, hexact⟩

end FleetHealth.Chain
