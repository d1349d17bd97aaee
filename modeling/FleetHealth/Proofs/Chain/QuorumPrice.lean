import FleetHealth.Chain.Gas
import FleetHealth.Proofs.Number.Words
import FleetHealth.Proofs.Results
import Mathlib.Data.List.Perm.Basic
import Mathlib.Order.Bounds.Basic

/-! # The quorum price

Each validator bids a price with its voting power behind it. The estimate of the next price
is the least price such that the bids up to it have a quorum. That is a property of the bids
as a collection: neither their order, nor how ties are walked, nor how far a counter can
count has a part in it.
-/
namespace FleetHealth.Chain

open Number

structure Bids (field : PriceField) (v : Validator) (bid : Nat × Nat) : Prop where
  price : field.read v = .ok bid.1
  power : v.power = .ok bid.2

theorem priceAndPower_eq_ok {field : PriceField} {v : Validator} {bid : Nat × Nat} :
    priceAndPower field v = .ok bid ↔ Bids field v bid := by
  unfold priceAndPower
  constructor
  · intro h
    obtain ⟨price, hprice, h⟩ := bind_eq_ok.mp h
    obtain ⟨power, hpower, h⟩ := bind_eq_ok.mp h
    cases h
    exact ⟨hprice, hpower⟩
  · intro h
    exact bind_eq_ok.mpr ⟨bid.1, h.price, bind_eq_ok.mpr ⟨bid.2, h.power, rfl⟩⟩

/-! ## Power behind prices -/

def totalPower (bids : List (Nat × Nat)) : Nat := sumOf (bids.map (·.2))

def powerUpTo (bids : List (Nat × Nat)) (price : Nat) : Nat := totalPower (bids.filter (·.1 ≤ price))

def powerBelow (bids : List (Nat × Nat)) (price : Nat) : Nat := totalPower (bids.filter (·.1 < price))

theorem totalPower_append (xs ys : List (Nat × Nat)) :
    totalPower (xs ++ ys) = totalPower xs + totalPower ys := by
  simp [totalPower, sumOf_eq_sum]

theorem totalPower_perm {xs ys : List (Nat × Nat)} (h : xs.Perm ys) :
    totalPower xs = totalPower ys := (h.map _).sum_eq

theorem totalPower_sublist {xs ys : List (Nat × Nat)} (h : xs.Sublist ys) :
    totalPower xs ≤ totalPower ys := by
  induction h with
  | slnil => exact Nat.le_refl _
  | cons bid _ ih => exact ih.trans (Nat.le_add_left ..)
  | cons_cons bid _ ih => exact Nat.add_le_add_left ih bid.2

theorem powerUpTo_le_total (bids : List (Nat × Nat)) (price : Nat) :
    powerUpTo bids price ≤ totalPower bids := totalPower_sublist List.filter_sublist

theorem powerBelow_le_total (bids : List (Nat × Nat)) (price : Nat) :
    powerBelow bids price ≤ totalPower bids := totalPower_sublist List.filter_sublist

theorem powerUpTo_le_powerBelow {lower price : Nat} (h : lower < price) (bids : List (Nat × Nat)) :
    powerUpTo bids lower ≤ powerBelow bids price := by
  apply totalPower_sublist
  apply List.monotone_filter_right
  intro bid hbid
  simp only [decide_eq_true_eq] at hbid ⊢
  omega

/-! ## The price of a collection of bids -/

/-- The least price with a quorum behind it; the greatest price if there is no quorum, and
zero if there is no bid. -/
structure IsQuorumPrice (bids : List (Nat × Nat)) (price : Nat) : Prop where
  unbid : bids = [] → price = 0
  isBid : bids ≠ [] → price ∈ bids.map (·.1)
  least : quorum ≤ totalPower bids →
    IsLeast {p | p ∈ bids.map (·.1) ∧ quorum ≤ powerUpTo bids p} price
  below : powerBelow bids price < quorum
  greatest : bids ≠ [] → totalPower bids < quorum → IsGreatest {p | p ∈ bids.map (·.1)} price

namespace IsQuorumPrice

variable {bids bids' : List (Nat × Nat)} {price price' : Nat}

theorem unique (h : IsQuorumPrice bids price) (h' : IsQuorumPrice bids price') : price = price' := by
  by_cases hempty : bids = []
  · rw [h.unbid hempty, h'.unbid hempty]
  · rcases Nat.lt_or_ge (totalPower bids) quorum with hpower | hpower
    · exact (h.greatest hempty hpower).unique (h'.greatest hempty hpower)
    · exact (h.least hpower).unique (h'.least hpower)

theorem perm (h : IsQuorumPrice bids price) (hperm : bids.Perm bids') :
    IsQuorumPrice bids' price := by
  have hempty : bids' = [] ↔ bids = [] := ⟨fun e => (e ▸ hperm).eq_nil, fun e => (e ▸ hperm).symm.eq_nil⟩
  have hmem : ∀ p, p ∈ bids'.map (·.1) ↔ p ∈ bids.map (·.1) := fun p => (hperm.map _).symm.mem_iff
  have htotal := totalPower_perm hperm
  have hupTo : ∀ p, powerUpTo bids p = powerUpTo bids' p := fun p => totalPower_perm (hperm.filter _)
  have hbelow : powerBelow bids price = powerBelow bids' price := totalPower_perm (hperm.filter _)
  constructor
  · exact fun e => h.unbid (hempty.mp e)
  · exact fun e => (hmem _).mpr (h.isBid (mt hempty.mpr e))
  · intro hpower
    simpa only [hmem, hupTo] using h.least (htotal ▸ hpower)
  · exact hbelow ▸ h.below
  · intro e hpower
    simpa only [hmem] using h.greatest (mt hempty.mpr e) (htotal ▸ hpower)

/-- A bid with less than a quorum below it and a quorum up to it is the price. -/
theorem of_reached (hbid : price ∈ bids.map (·.1)) (hbelow : powerBelow bids price < quorum)
    (hupTo : quorum ≤ powerUpTo bids price) : IsQuorumPrice bids price := by
  have htotal : quorum ≤ totalPower bids := hupTo.trans (powerUpTo_le_total ..)
  constructor
  · rintro rfl
    cases hbid
  · exact fun _ => hbid
  · intro _
    refine ⟨⟨hbid, hupTo⟩, ?_⟩
    rintro lower ⟨-, hlower⟩
    by_contra hlt
    have hle := powerUpTo_le_powerBelow (Nat.lt_of_not_le hlt) bids
    omega
  · exact hbelow
  · intro _ hpower
    omega

theorem of_unreached (hbid : price ∈ bids.map (·.1)) (hgreatest : ∀ p ∈ bids.map (·.1), p ≤ price)
    (htotal : totalPower bids < quorum) : IsQuorumPrice bids price := by
  constructor
  · rintro rfl
    cases hbid
  · exact fun _ => hbid
  · intro hpower
    omega
  · exact (powerBelow_le_total ..).trans_lt htotal
  · exact fun _ _ => ⟨hbid, hgreatest⟩

end IsQuorumPrice

/-! ## The walk in ascending order -/

def exactQuorumPrice : List (Nat × Nat) → Nat → Nat → Nat
  | [], _, last => last
  | (price, power) :: rest, total, _ =>
    if quorum ≤ total + power then price else exactQuorumPrice rest (total + power) price

/-- A counter is cut off only where the walk ends anyway. -/
theorem quorumPrice_eq_exact (bids : List (Nat × Nat)) (total last : Nat) :
    quorumPrice bids total last = exactQuorumPrice bids total last := by
  induction bids generalizing total last with
  | nil => rfl
  | cons bid rest ih =>
    have hreached : quorum ≤ capCounter (total + bid.2) ↔ quorum ≤ total + bid.2 := by
      simp only [quorum, capCounter, counterMax]
      omega
    simp only [quorumPrice, exactQuorumPrice, hreached]
    split
    · rfl
    · next hless =>
      have hheld : capCounter (total + bid.2) = total + bid.2 := by
        simp only [quorum, capCounter, counterMax] at hless ⊢
        omega
      rw [hheld, ih]

/-- The walk ends at the bid that completes the quorum, or at the last one without a quorum. -/
theorem exactQuorumPrice_split (bids : List (Nat × Nat)) {total : Nat} (last : Nat)
    (htotal : total < quorum) :
    (∃ before bid after, bids = before ++ bid :: after ∧ total + totalPower before < quorum ∧
      quorum ≤ total + totalPower before + bid.2 ∧ exactQuorumPrice bids total last = bid.1) ∨
    (total + totalPower bids < quorum ∧
      exactQuorumPrice bids total last = (bids.map (·.1)).getLastD last) := by
  induction bids generalizing total last with
  | nil => exact .inr ⟨htotal, rfl⟩
  | cons bid rest ih =>
    unfold exactQuorumPrice
    split
    · next hreached => exact .inl ⟨[], bid, rest, rfl, htotal, hreached, rfl⟩
    · next hless =>
      have hcons : ∀ xs, totalPower (bid :: xs) = bid.2 + totalPower xs := fun _ => rfl
      rcases ih bid.1 (Nat.lt_of_not_le hless) with ⟨before, bid', after, rfl, hbefore, hend, hprice⟩ | ⟨hrest, hprice⟩
      · refine .inl ⟨bid :: before, bid', after, rfl, ?_, ?_, hprice⟩
        · rw [hcons]
          omega
        · rw [hcons]
          omega
      · refine .inr ⟨?_, ?_⟩
        · rw [hcons]
          omega
        · rw [hprice, List.map_cons, List.getLastD_cons]

def Ascending (bids : List (Nat × Nat)) : Prop := bids.Pairwise fun a b => a.1 ≤ b.1

/-- Walking ascending bids to the quorum gives the quorum price. -/
theorem Ascending.isQuorumPrice {bids : List (Nat × Nat)} (h : Ascending bids) :
    IsQuorumPrice bids (exactQuorumPrice bids 0 0) := by
  rcases exactQuorumPrice_split bids 0 (show 0 < quorum by decide) with
    ⟨before, bid, after, rfl, hbefore, hend, hprice⟩ | ⟨htotal, hprice⟩
  · rw [hprice]
    obtain ⟨-, hafter, hcross⟩ := List.pairwise_append.mp h
    -- nobody from this bid on bids less, and nobody before it bids more
    have hbelow : (bid :: after).filter (·.1 < bid.1) = [] := by
      rw [List.filter_eq_nil_iff]
      intro b hb
      rcases List.mem_cons.mp hb with rfl | hb
      · simp
      · have hle := (List.pairwise_cons.mp hafter).1 b hb
        simpa using hle
    have hupTo : before.filter (·.1 ≤ bid.1) = before := by
      rw [List.filter_eq_self]
      intro b hb
      simpa using hcross b hb bid List.mem_cons_self
    apply IsQuorumPrice.of_reached
    · simp
    · have hle : totalPower (before.filter (·.1 < bid.1)) ≤ totalPower before :=
        totalPower_sublist List.filter_sublist
      rw [powerBelow, List.filter_append, hbelow, List.append_nil]
      omega
    · rw [powerUpTo, List.filter_append, hupTo, totalPower_append]
      have hle : bid.2 ≤ totalPower ((bid :: after).filter (·.1 ≤ bid.1)) := by
        rw [List.filter_cons_of_pos (by simp)]
        exact Nat.le_add_right ..
      omega
  · rw [hprice]
    rcases List.eq_nil_or_concat' bids with rfl | ⟨front, bid, rfl⟩
    · exact ⟨fun _ => rfl, fun h => absurd rfl h, by simp [totalPower, sumOf, quorum], by decide,
        fun h => absurd rfl h⟩
    · have hlast : ((front ++ [bid]).map (·.1)).getLastD 0 = bid.1 := by simp
      rw [hlast]
      apply IsQuorumPrice.of_unreached
      · simp
      · intro p hp
        obtain ⟨b, hb, rfl⟩ := List.mem_map.mp hp
        rcases List.mem_append.mp hb with hb | hb
        · exact (List.pairwise_append.mp h).2.2 b hb bid (List.mem_singleton.mpr rfl)
        · rw [List.mem_singleton.mp hb]
      · omega

/-! ## What the walk holds -/

/-- The power that the walk holds after some bids. -/
def heldPower (total : Nat) (bids : List (Nat × Nat)) : Nat :=
  bids.foldl (fun total bid => capCounter (total + bid.2)) total

def walked : List (Nat × Nat) → Nat → List (Nat × Nat)
  | [], _ => []
  | bid :: rest, total =>
    let total := capCounter (total + bid.2)
    if quorum ≤ total then [bid] else bid :: walked rest total

theorem quorumPrice_eq_walked (bids : List (Nat × Nat)) (total last : Nat) :
    quorumPrice bids total last = ((walked bids total).map (·.1)).getLastD last := by
  induction bids generalizing total last with
  | nil => rfl
  | cons bid rest ih =>
    simp only [quorumPrice, walked]
    split
    · rfl
    · rw [ih, List.map_cons, List.getLastD_cons]

/-- Powers only add to what is held, so it is the exact sum cut off once. -/
theorem heldPower_eq {total : Nat} (h : total ≤ counterMax) (bids : List (Nat × Nat)) :
    heldPower total bids = capCounter (total + totalPower bids) := by
  induction bids generalizing total with
  | nil => exact (capCounter_of_le h).symm
  | cons bid rest ih =>
    have hcons : totalPower (bid :: rest) = bid.2 + totalPower rest := rfl
    have hheld : heldPower total (bid :: rest) = heldPower (capCounter (total + bid.2)) rest := rfl
    have hcapped : capCounter (total + bid.2) ≤ counterMax := Nat.min_le_right ..
    rw [hheld, ih hcapped, hcons]
    simp only [capCounter]
    omega

/-- The walk comes to the bids in their order. Before it ends it is below the quorum, and a sum
that is cut off ends it with a quorum. -/
structure WalksToQuorum (bids : List (Nat × Nat)) (total : Nat) : Prop where
  inOrder : walked bids total <+: bids
  below : ∀ part, part <+: walked bids total → part ≠ walked bids total →
    total + totalPower part < quorum
  cutOff : ∀ part, part <+: walked bids total → heldPower total part ≠ total + totalPower part →
    part = walked bids total ∧ quorum ≤ heldPower total part

theorem walked_below {bids part : List (Nat × Nat)} {total : Nat} (htotal : total < quorum)
    (hpart : part <+: walked bids total) (hends : part ≠ walked bids total) :
    total + totalPower part < quorum := by
  induction bids generalizing part total with
  | nil => exact absurd (List.prefix_nil.mp hpart) hends
  | cons bid rest ih =>
    simp only [walked] at hpart hends
    cases part with
    | nil => exact htotal
    | cons first part =>
      have hcons : totalPower (first :: part) = first.2 + totalPower part := rfl
      split at hpart
      · next hreached =>
        rw [if_pos hreached] at hends
        obtain ⟨rfl, hnil⟩ := List.cons_prefix_cons.mp hpart
        rw [List.prefix_nil.mp hnil] at hends
        exact absurd rfl hends
      · next hless =>
        rw [if_neg hless] at hends
        obtain ⟨rfl, hrest⟩ := List.cons_prefix_cons.mp hpart
        have hheld : capCounter (total + first.2) = total + first.2 := by
          simp only [quorum, capCounter, counterMax] at hless ⊢
          omega
        have hlater := ih (Nat.lt_of_not_le hless) hrest (by simpa using hends)
        rw [hheld] at hlater
        rw [hcons]
        omega

theorem walked_inOrder (bids : List (Nat × Nat)) (total : Nat) : walked bids total <+: bids := by
  induction bids generalizing total with
  | nil => exact List.nil_prefix
  | cons bid rest ih =>
    simp only [walked]
    split
    · exact List.cons_prefix_cons.mpr ⟨rfl, List.nil_prefix⟩
    · exact List.cons_prefix_cons.mpr ⟨rfl, ih _⟩

theorem walksToQuorum (bids : List (Nat × Nat)) {total : Nat} (htotal : total < quorum) :
    WalksToQuorum bids total := by
  have hmax : quorum ≤ counterMax := by decide
  have hheld := heldPower_eq (htotal.le.trans hmax)
  refine ⟨walked_inOrder bids total, fun _ => walked_below htotal, fun part hpart hcut => ?_⟩
  have hlarge : counterMax < total + totalPower part := by
    by_contra hfits
    rw [hheld, capCounter_of_le (Nat.le_of_not_lt hfits)] at hcut
    exact hcut rfl
  refine ⟨?_, ?_⟩
  · by_contra hends
    have hless := walked_below htotal hpart hends
    omega
  · rw [hheld]
    simp only [capCounter]
    omega

theorem ascending_mergeSort (bids : List (Nat × Nat)) :
    Ascending (bids.mergeSort fun a b => a.1 ≤ b.1) := by
  have h : (bids.mergeSort fun a b => a.1 ≤ b.1).Pairwise fun a b => decide (a.1 ≤ b.1) = true := by
    apply List.pairwise_mergeSort
    · intro a b c hab hbc
      simp only [decide_eq_true_eq] at hab hbc ⊢
      omega
    · intro a b
      simp only [Bool.or_eq_true, decide_eq_true_eq]
      omega
  exact h.imp fun hab => of_decide_eq_true hab

theorem isQuorumPrice_mergeSort (bids : List (Nat × Nat)) :
    IsQuorumPrice bids (exactQuorumPrice (bids.mergeSort fun a b => a.1 ≤ b.1) 0 0) :=
  (ascending_mergeSort bids).isQuorumPrice.perm (List.mergeSort_perm bids _)

theorem estimatedNextPrice_eq {vs : List Validator} {field : PriceField} {bids : List (Nat × Nat)}
    (h : List.Forall₂ (Bids field) vs bids) : estimatedNextPrice vs field =
      .ok (exactQuorumPrice (bids.mergeSort fun a b => a.1 ≤ b.1) 0 0) := by
  have hread : vs.mapM (priceAndPower field) = .ok bids := by
    rw [mapM_eq_ok]
    exact h.imp fun _ _ => priceAndPower_eq_ok.mpr
  unfold estimatedNextPrice
  rw [mapError_eq_ok.mpr hread, ← quorumPrice_eq_exact]
  rfl

/-- The estimate is the quorum price of the bids, whatever their order and whatever the
powers: walking them in any ascending order with exact sums leads there too. -/
theorem estimatedNextPrice_isQuorumPrice {vs : List Validator} {field : PriceField}
    {bids : List (Nat × Nat)} (h : List.Forall₂ (Bids field) vs bids) :
    ∃ price, estimatedNextPrice vs field = .ok price ∧ IsQuorumPrice bids price ∧
      (∀ other, IsQuorumPrice bids other → other = price) ∧
      (∀ vs' : List Validator, vs'.Perm vs → estimatedNextPrice vs' field = .ok price) ∧
      ∀ walk : List (Nat × Nat), walk.Perm bids → Ascending walk →
        exactQuorumPrice walk 0 0 = price := by
  have hprice := isQuorumPrice_mergeSort bids
  refine ⟨_, estimatedNextPrice_eq h, hprice, ?_, ?_, ?_⟩
  · intro other hother
    exact hother.unique hprice
  · intro vs' hvs
    obtain ⟨bids', h', hbids⟩ := List.perm_comp_forall₂ hvs h
    rw [estimatedNextPrice_eq h', ((isQuorumPrice_mergeSort bids').perm hbids).unique hprice]
  · intro walk hwalk hascending
    exact (hascending.isQuorumPrice.perm hwalk).unique hprice

/-- A tie, a bid without power, and one with more than a counter can add to the rest. -/
def vastBidders : List Validator :=
  let bidder := fun price power : String =>
    (⟨"0x1", "", power, "1", price, "1", "", "", "", "", "", ""⟩ : Validator)
  [bidder "750" "18446744073709551615", bidder "500" "6666", bidder "750" "0"]

def vastBids : List (Nat × Nat) := [(750, 18446744073709551615), (500, 6666), (750, 0)]

theorem vastBidders_bid : List.Forall₂ (Bids .nextEpoch) vastBidders vastBids :=
  .cons ⟨by rfl, by rfl⟩ (.cons ⟨by rfl, by rfl⟩ (.cons ⟨by rfl, by rfl⟩ .nil))

theorem vast_bid_completes_quorum : List.Forall₂ (Bids .nextEpoch) vastBidders vastBids ∧
    estimatedNextPrice vastBidders .nextEpoch = .ok 750 ∧ IsQuorumPrice vastBids 750 := by
  obtain ⟨price, hprice, hquorum, -, -, hwalk⟩ := estimatedNextPrice_isQuorumPrice vastBidders_bid
  have h : exactQuorumPrice [(500, 6666), (750, 0), (750, 18446744073709551615)] 0 0 = price := by
    apply hwalk
    · decide
    · unfold Ascending
      decide
  have heq : price = 750 := h.symm.trans (by decide)
  exact ⟨vastBidders_bid, heq ▸ hprice, heq ▸ hquorum⟩

end FleetHealth.Chain
