import FleetHealth.Proofs.Chain.PriceStatistics

/-! # The first culprit

Statistics that cannot be computed are refused because of one validator, or because nobody has
a stake. Of all that is wrong with a set of validators the first counts: unread quotes come
before unread stakes, these before a total stake of zero, and that before unread powers; of
several unread texts of a kind it is that of the validator listed first.
-/
namespace FleetHealth.Chain

open Number Text

/-- Is the text, without the blanks around it, no numeral of at most `bound`? -/
def isUnread (bound : Nat) (raw : String) : Bool := (readUnsigned? bound (trim raw.toList)).isNone

def textFault? (bound : Nat) (field : String) (text : Validator → String) (vs : List Validator) :
    Option StateError :=
  (vs.find? fun v => isUnread bound (text v)).map fun v =>
    .invalidField v.displayName field (text v)

structure FailsOn {α : Type} (bound : Nat) (field : String) (text : Validator → String)
    (vs : List Validator) (read : Validator → Except StateError α) : Prop where
  ok : ∀ v ∈ vs, isUnread bound (text v) = false → ∃ a, read v = .ok a
  error : ∀ v ∈ vs, isUnread bound (text v) = true →
    read v = .error (.invalidField v.displayName field (text v))

namespace FailsOn

variable {α β : Type} {bound : Nat} {field : String} {text : Validator → String}
  {vs : List Validator} {read : Validator → Except StateError α}

theorem readField (bound : Nat) (field : String) (text : Validator → String) (vs : List Validator) :
    FailsOn bound field text vs fun v => v.readField bound field (text v) := by
  constructor
  · intro v _ hread
    obtain ⟨n, hn⟩ := Option.isSome_iff_exists.mp (Option.isNone_eq_false_iff.mp hread)
    exact ⟨n, by simp only [Validator.readField, hn]⟩
  · intro v _ hunread
    simp only [Validator.readField, Option.isNone_iff_eq_none.mp hunread]

/-- What is read before, and never fails, does not change the fault. -/
theorem after {first : Validator → Except StateError β} (h : FailsOn bound field text vs read)
    (hfirst : ∀ v ∈ vs, ∃ b, first v = .ok b) :
    FailsOn bound field text vs fun v => first v >>= fun b => read v >>= fun a => .ok (b, a) := by
  constructor
  · intro v hv hread
    obtain ⟨b, hb⟩ := hfirst v hv
    obtain ⟨a, ha⟩ := h.ok v hv hread
    refine ⟨(b, a), ?_⟩
    rw [hb, ha]
    rfl
  · intro v hv hunread
    obtain ⟨b, hb⟩ := hfirst v hv
    rw [hb, h.error v hv hunread]
    rfl

/-- Reading all validators fails with the fault of the first unread text. -/
theorem mapM_error (h : FailsOn bound field text vs read) {e : StateError}
    (hfault : textFault? bound field text vs = some e) : vs.mapM read = .error e := by
  obtain ⟨v, hv, rfl⟩ := Option.map_eq_some_iff.mp hfault
  have hunread := List.find?_some hv
  exact mapM_of_find? hv h.ok (h.error v (List.mem_of_find?_eq_some hv) hunread)

theorem forall_ok (h : FailsOn bound field text vs read)
    (hfault : textFault? bound field text vs = none) : ∀ v ∈ vs, ∃ a, read v = .ok a := by
  have hread := List.find?_eq_none.mp (Option.map_eq_none_iff.mp hfault)
  intro v hv
  exact h.ok v hv (Bool.eq_false_iff.mpr (hread v hv))

theorem mapM_ok (h : FailsOn bound field text vs read)
    (hfault : textFault? bound field text vs = none) : ∃ as, vs.mapM read = .ok as :=
  exists_mapM_eq_ok (h.forall_ok hfault)

end FailsOn

/-! ## What the statistics are refused for -/

def PriceField.text : PriceField → Validator → String
  | .current, v => v.gasPrice
  | .nextEpoch, v => v.nextEpochGasPrice

def PriceField.wireName : PriceField → String
  | .current => "gasPrice"
  | .nextEpoch => "nextEpochGasPrice"

def PriceField.overwriteOther : PriceField → Validator → String → Validator
  | .current, v, raw => { v with nextEpochGasPrice := raw }
  | .nextEpoch, v, raw => { v with gasPrice := raw }

def quoteFault? (field : PriceField) : List Validator → Option StateError :=
  textFault? counterMax field.wireName field.text

def stakeFault? : List Validator → Option StateError :=
  textFault? amountMax "stakingPoolSuiBalance" (·.stakingPoolBalance)

def powerFault? : List Validator → Option StateError :=
  textFault? counterMax "votingPower" (·.votingPower)

def Stakeless (vs : List Validator) : Prop := vs ≠ [] ∧ ∀ v ∈ vs, v.stake = .ok 0

instance (vs : List Validator) : Decidable (Stakeless vs) := inferInstanceAs (Decidable (_ ∧ _))

/-- The first thing that is wrong with a set of validators. -/
def gasFault? (field : PriceField) (vs : List Validator) : Option GasError :=
  ((quoteFault? field vs).map .validator).or <|
  ((stakeFault? vs).map .validator).or <|
  (if Stakeless vs then some (.zeroTotalStake vs.length) else none).or <|
  (powerFault? vs).map .validator

variable {field : PriceField} {vs : List Validator} {quotes : List Quote}

theorem failsOn_quotes (field : PriceField) (vs : List Validator) :
    FailsOn counterMax field.wireName field.text vs field.read := by
  have hread : field.read = fun v => v.readField counterMax field.wireName (field.text v) := by
    cases field <;> rfl
  rw [hread]
  exact .readField counterMax field.wireName field.text vs

theorem failsOn_stakes (h : quoteFault? field vs = none) :
    FailsOn amountMax "stakingPoolSuiBalance" (·.stakingPoolBalance) vs (priceAndStake field) :=
  (FailsOn.readField amountMax "stakingPoolSuiBalance" (·.stakingPoolBalance) vs).after
    ((failsOn_quotes field vs).forall_ok h)

theorem failsOn_powers (h : quoteFault? field vs = none) :
    FailsOn counterMax "votingPower" (·.votingPower) vs (priceAndPower field) :=
  (FailsOn.readField counterMax "votingPower" (·.votingPower) vs).after
    ((failsOn_quotes field vs).forall_ok h)

/-- Without faults of texts all quotes, stakes and powers are read. -/
theorem exists_quotes_of_no_fault (hquote : quoteFault? field vs = none)
    (hstake : stakeFault? vs = none) (hpower : powerFault? vs = none) :
    ∃ quotes, List.Forall₂ (Quotes field) vs quotes := by
  obtain ⟨staked, hstaked⟩ := (failsOn_stakes hquote).mapM_ok hstake
  obtain ⟨bids, hbids⟩ := (failsOn_powers hquote).mapM_ok hpower
  apply exists_quotes (mapM_eq_ok.mp hstaked)
  exact (mapM_eq_ok.mp hbids).imp fun _ _ => priceAndPower_eq_ok.mp

/-! ## A total stake of zero -/

section Stakes

variable (h : List.Forall₂ (fun v q => priceAndStake field v = .ok q.staked) vs quotes)
include h

theorem stakeless_iff : Stakeless vs ↔ quotes ≠ [] ∧ sumOf (quotes.map (·.stake)) = 0 := by
  have hzero : (∀ v ∈ vs, v.stake = .ok 0) ↔ sumOf (quotes.map (·.stake)) = 0 := by
    rw [sumOf_eq_sum, List.sum_eq_zero_iff, List.forall_mem_map]
    induction h with
    | nil => simp
    | @cons v q _ _ hv _ ih =>
      have hstake : v.stake = .ok q.stake := (priceAndStake_eq_ok.mp hv).2
      simp only [List.forall_mem_cons, ih, hstake, Except.ok.injEq]
  have hempty : vs ≠ [] ↔ quotes ≠ [] := by
    rw [ne_eq, ne_eq, ← List.length_eq_zero_iff, h.length_eq, List.length_eq_zero_iff]
  rw [Stakeless, hzero, hempty]

theorem staked_withinWords (hcount : vs.length < 2 ^ 64) : WithinWords quotes := by
  apply withinWords_of_le
  · rw [← h.length_eq]
    exact Nat.le_of_lt_succ hcount
  · exact staked_le h

theorem weightedMean_of_stakeless (hcount : vs.length < 2 ^ 64) (hstakeless : Stakeless vs) :
    stakeWeightedMeanPrice vs field = .error (.zeroTotalStake vs.length) := by
  obtain ⟨hne, hzero⟩ := (stakeless_iff h).mp hstakeless
  rw [stakeWeightedMeanPrice_eq (staked_withinWords h hcount) h, if_neg hne, if_pos hzero,
    h.length_eq]

theorem stake_pos_of_not_stakeless (hstaked : ¬Stakeless vs) (hne : quotes ≠ []) :
    0 < sumOf (quotes.map (·.stake)) :=
  Nat.pos_of_ne_zero fun hzero => hstaked ((stakeless_iff h).mpr ⟨hne, hzero⟩)

end Stakes

/-- Quotes and stakes that are read without their powers. -/
theorem exists_staked (hquote : quoteFault? field vs = none) (hstake : stakeFault? vs = none) :
    ∃ quotes, List.Forall₂ (fun v q => priceAndStake field v = .ok (Quote.staked q)) vs quotes := by
  obtain ⟨staked, hstaked⟩ := (failsOn_stakes hquote).mapM_ok hstake
  refine ⟨staked.map fun s => ⟨s.1, s.2, 0⟩, ?_⟩
  rw [List.forall₂_map_right_iff]
  exact mapM_eq_ok.mp hstaked

/-! ## One pass after the other -/

section Passes

variable {e : StateError} {error : GasError} {ps : List Nat}

theorem prices_of_quoteFault (h : quoteFault? field vs = some e) :
    prices vs field = .error (.validator e) := by
  rw [prices, (failsOn_quotes field vs).mapM_error h]
  rfl

theorem weightedMean_of_stakeFault (hquote : quoteFault? field vs = none)
    (h : stakeFault? vs = some e) : stakeWeightedMeanPrice vs field = .error (.validator e) := by
  rw [stakeWeightedMeanPrice, (failsOn_stakes hquote).mapM_error h]
  rfl

theorem estimatedNextPrice_of_powerFault (hquote : quoteFault? field vs = none)
    (h : powerFault? vs = some e) : estimatedNextPrice vs field = .error (.validator e) := by
  rw [estimatedNextPrice, (failsOn_powers hquote).mapM_error h]
  rfl

theorem exists_prices (hquote : quoteFault? field vs = none) : ∃ ps, prices vs field = .ok ps := by
  obtain ⟨ps, hps⟩ := (failsOn_quotes field vs).mapM_ok hquote
  exact ⟨ps, mapError_eq_ok.mpr hps⟩

theorem gasStatistics_of_prices (h : prices vs field = .error error) :
    gasStatistics vs field = .error error := by
  rw [gasStatistics, minPrice, h]
  rfl

theorem gasStatistics_of_weightedMean (hprices : prices vs field = .ok ps)
    (h : stakeWeightedMeanPrice vs field = .error error) :
    gasStatistics vs field = .error error := by
  rw [gasStatistics, minPrice, maxPrice, meanPrice, medianPrice, hprices, h]
  rfl

theorem gasStatistics_of_estimate {mean : Nat} (hprices : prices vs field = .ok ps)
    (hmean : stakeWeightedMeanPrice vs field = .ok mean)
    (h : estimatedNextPrice vs field = .error error) :
    gasStatistics vs field = .error error := by
  rw [gasStatistics, minPrice, maxPrice, meanPrice, medianPrice, hprices, hmean, h]
  rfl

end Passes

/-! ## The first fault -/

theorem gasStatistics_of_fault (hcount : vs.length < 2 ^ 64) {error : GasError}
    (h : gasFault? field vs = some error) : gasStatistics vs field = .error error := by
  unfold gasFault? at h
  cases hquote : quoteFault? field vs with
  | some fault =>
    rw [hquote] at h
    cases h
    exact gasStatistics_of_prices (prices_of_quoteFault hquote)
  | none =>
    obtain ⟨ps, hprices⟩ := exists_prices hquote
    cases hstake : stakeFault? vs with
    | some fault =>
      rw [hquote, hstake] at h
      cases h
      exact gasStatistics_of_weightedMean hprices (weightedMean_of_stakeFault hquote hstake)
    | none =>
      obtain ⟨quotes, hstaked⟩ := exists_staked hquote hstake
      rw [hquote, hstake] at h
      by_cases hstakeless : Stakeless vs
      · rw [if_pos hstakeless] at h
        cases h
        exact gasStatistics_of_weightedMean hprices
          (weightedMean_of_stakeless hstaked hcount hstakeless)
      · rw [if_neg hstakeless] at h
        obtain ⟨fault, hpower, rfl⟩ := Option.map_eq_some_iff.mp h
        obtain ⟨mean, hmean⟩ := exists_weightedMean (staked_withinWords hstaked hcount) hstaked
          (stake_pos_of_not_stakeless hstaked hstakeless)
        exact gasStatistics_of_estimate hprices hmean
          (estimatedNextPrice_of_powerFault hquote hpower)

theorem gasStatistics_of_no_fault (hcount : vs.length < 2 ^ 64) (h : gasFault? field vs = none) :
    ∃ stats quotes, gasStatistics vs field = .ok stats ∧
      List.Forall₂ (Quotes field) vs quotes ∧ ExactStatistics quotes stats := by
  simp only [gasFault?, Option.or_eq_none_iff, Option.map_eq_none_iff, ite_eq_right_iff,
    reduceCtorEq, imp_false] at h
  obtain ⟨hquote, hstake, hstaked, hpower⟩ := h
  obtain ⟨quotes, hread⟩ := exists_quotes_of_no_fault hquote hstake hpower
  obtain ⟨stats, hstats⟩ := exists_gasStatistics hcount hread
    (stake_pos_of_not_stakeless (hread.imp fun _ _ hq => hq.staked) hstaked)
  exact ⟨stats, quotes, hstats, hread, exactStatistics (withinWords hcount hread) hread hstats⟩

/-- The statistics read one quote of each validator, and never the other. -/
theorem gasStatistics_overwriteOther {vs' : List Validator}
    (h : List.Forall₂ (fun v v' => ∃ raw, v' = field.overwriteOther v raw) vs vs') :
    gasStatistics vs' field = gasStatistics vs field := by
  have hsame : ∀ {α : Type} {read : Validator → Except StateError α},
      (∀ v raw, read (field.overwriteOther v raw) = read v) → vs'.mapM read = vs.mapM read := by
    intro α read hread
    apply mapM_congr_of_forall₂
    refine h.imp ?_
    rintro v _ ⟨raw, rfl⟩
    exact hread v raw
  have hprices : vs'.mapM field.read = vs.mapM field.read :=
    hsame fun v raw => by cases field <;> rfl
  have hstaked : vs'.mapM (priceAndStake field) = vs.mapM (priceAndStake field) :=
    hsame fun v raw => by cases field <;> rfl
  have hbids : vs'.mapM (priceAndPower field) = vs.mapM (priceAndPower field) :=
    hsame fun v raw => by cases field <;> rfl
  simp only [gasStatistics, minPrice, maxPrice, meanPrice, medianPrice, prices,
    stakeWeightedMeanPrice, estimatedNextPrice, hprices, hstaked, hbids]

/-- The statistics are refused for the first fault and computed without one; then all that they
are made of was read. As in every list that memory can hold, the number of validators fits into
a word. -/
theorem gasStatistics_refused_for_first_fault (field : PriceField) (hcount : vs.length < 2 ^ 64) :
    (∀ error, gasStatistics vs field = .error error ↔ gasFault? field vs = some error) ∧
    (gasFault? field vs = none → ∃ stats quotes, gasStatistics vs field = .ok stats ∧
      List.Forall₂ (Quotes field) vs quotes ∧ ExactStatistics quotes stats) ∧
    ∀ vs', List.Forall₂ (fun v v' => ∃ raw, v' = field.overwriteOther v raw) vs vs' →
      gasStatistics vs' field = gasStatistics vs field := by
  refine ⟨?_, gasStatistics_of_no_fault hcount, fun vs' => gasStatistics_overwriteOther⟩
  intro error
  constructor
  · intro h
    cases hfault : gasFault? field vs with
    | some first =>
      have hfirst := gasStatistics_of_fault hcount hfault
      rw [h, Except.error.injEq] at hfirst
      rw [hfirst]
    | none =>
      obtain ⟨stats, -, hstats, -⟩ := gasStatistics_of_no_fault hcount hfault
      rw [h] at hstats
      cases hstats
  · exact gasStatistics_of_fault hcount

/-- All that can be wrong at once: the first validator has no stake and no readable power, the
second no readable quote for the next epoch and no name, the third no readable number at all. -/
def faultyValidators : List Validator :=
  let validator := fun name power price next stake : String =>
    (⟨"0x2", name, power, price, next, stake, "", "", "", "", "", ""⟩ : Validator)
  [validator "alpha" "-1" "700" "750" "0", validator "" "5000" "710" " 12.5 " "0",
   validator "gamma" "" "" "" ""]

/-- The quote for the next epoch comes before all else; the current quotes of the first two are
read, and then that nobody has a stake comes before the power. -/
theorem faultyValidators_refused : faultyValidators.length < 2 ^ 64 ∧
    gasStatistics faultyValidators .nextEpoch =
      .error (.validator (.invalidField "0x2" "nextEpochGasPrice" " 12.5 ")) ∧
    gasStatistics (faultyValidators.take 2) .current = .error (.zeroTotalStake 2) := by
  have hcount : faultyValidators.length < 2 ^ 64 := by decide
  have hcount' : (faultyValidators.take 2).length < 2 ^ 64 := by decide
  refine ⟨hcount, ?_, ?_⟩
  · exact ((gasStatistics_refused_for_first_fault .nextEpoch hcount).1 _).mpr (by decide)
  · exact ((gasStatistics_refused_for_first_fault .current hcount').1 _).mpr (by decide)

end FleetHealth.Chain
