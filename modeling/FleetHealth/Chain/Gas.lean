import FleetHealth.Chain.Validator

/-! # Gas price statistics

Six figures over the quotes of the active validators. Each is computed over all of
them or not at all; over none it is zero.
-/
namespace FleetHealth.Chain

open Number

/-- Two thirds of the total voting power of 10000 basis points, and a bit. -/
def quorum : Nat := 6667

inductive PriceField where
  | current
  | nextEpoch
deriving DecidableEq, Repr

def PriceField.name : PriceField → String
  | .current => "current"
  | .nextEpoch => "next_epoch"

def PriceField.read : PriceField → Validator → Except StateError Nat
  | .current, v => v.currentPrice
  | .nextEpoch, v => v.nextPrice

inductive GasError where
  | validator (e : StateError)
  | zeroTotalStake (validators : Nat)
deriving DecidableEq, Repr

def GasError.message : GasError → String
  | .validator e => e.message
  | .zeroTotalStake n => s!"total stake of {n} validators is zero"

structure GasStatistics where
  min : Nat
  max : Nat
  mean : Nat
  median : Nat
  stakeWeightedMean : Nat
  estimatedNext : Nat
deriving DecidableEq, Repr

def GasStatistics.toJson (g : GasStatistics) : Json :=
  .object [("min", .nat g.min), ("max", .nat g.max), ("mean", .nat g.mean),
    ("median", .nat g.median), ("stake_weighted_mean", .nat g.stakeWeightedMean),
    ("estimated_next", .nat g.estimatedNext)]

def prices (vs : List Validator) (field : PriceField) : Except GasError (List Nat) :=
  (vs.mapM field.read).mapError .validator

def minPrice (vs : List Validator) (field : PriceField) : Except GasError Nat :=
  (prices vs field).map fun ps => ps.min?.getD 0

def maxPrice (vs : List Validator) (field : PriceField) : Except GasError Nat :=
  (prices vs field).map fun ps => ps.max?.getD 0

def heldSum (ps : List Nat) : Nat := ps.foldl (fun sum p => wrapAmount (sum + p)) 0

def meanPrice (vs : List Validator) (field : PriceField) : Except GasError Nat :=
  (prices vs field).map fun ps => wrapCounter (heldSum ps / ps.length)

/-- The middle of a list in ascending order; of an even number of values the mean of the
two in the middle, rounded down. -/
def middle (ps : List Nat) : Nat :=
  let mid := ps.length / 2
  if ps.length % 2 = 0 then wrapCounter (wrapAmount (ps.getD (mid - 1) 0 + ps.getD mid 0) / 2)
  else ps.getD mid 0

def medianPrice (vs : List Validator) (field : PriceField) : Except GasError Nat :=
  (prices vs field).map fun ps => middle (ps.mergeSort (· ≤ ·))

def priceAndStake (field : PriceField) (v : Validator) : Except StateError (Nat × Nat) := do
  let price ← field.read v
  let stake ← v.stake
  .ok (price, stake)

structure StakeSums where
  weighted : Nat
  stake : Nat
deriving DecidableEq, Repr

def StakeSums.add (sums : StakeSums) (quote : Nat × Nat) : StakeSums where
  weighted := wrapWide (sums.weighted + wrapWide (quote.1 * quote.2))
  stake := wrapWide (sums.stake + quote.2)

def StakeSums.ofQuotes (quotes : List (Nat × Nat)) : StakeSums := quotes.foldl .add ⟨0, 0⟩

def stakeWeightedMeanPrice (vs : List Validator) (field : PriceField) : Except GasError Nat := do
  let quotes ← (vs.mapM (priceAndStake field)).mapError .validator
  let sums := StakeSums.ofQuotes quotes
  if quotes = [] then .ok 0
  else if sums.stake = 0 then .error (.zeroTotalStake quotes.length)
  else .ok (capCounter (sums.weighted / sums.stake))

def priceAndPower (field : PriceField) (v : Validator) : Except StateError (Nat × Nat) := do
  let price ← field.read v
  let power ← v.power
  .ok (price, power)

/-- The quote at which the power of the quotes walked so far reaches the quorum; the last
quote if it never does. -/
def quorumPrice : List (Nat × Nat) → Nat → Nat → Nat
  | [], _, last => last
  | (price, power) :: rest, total, _ =>
    let total := capCounter (total + power)
    if quorum ≤ total then price else quorumPrice rest total price

/-- The price the next epoch is expected to have: the quotes are walked in ascending order,
equal ones in the order of the validators, until they have a quorum. -/
def estimatedNextPrice (vs : List Validator) (field : PriceField) : Except GasError Nat := do
  let quotes ← (vs.mapM (priceAndPower field)).mapError .validator
  .ok (quorumPrice (quotes.mergeSort fun a b => a.1 ≤ b.1) 0 0)

def gasStatistics (vs : List Validator) (field : PriceField) : Except GasError GasStatistics := do
  .ok {
    min := ← minPrice vs field
    max := ← maxPrice vs field
    mean := ← meanPrice vs field
    median := ← medianPrice vs field
    stakeWeightedMean := ← stakeWeightedMeanPrice vs field
    estimatedNext := ← estimatedNextPrice vs field }

def slashingPercentage (power : Nat) : Nat := min (capCounter (power * 100) / quorum) 100

end FleetHealth.Chain
