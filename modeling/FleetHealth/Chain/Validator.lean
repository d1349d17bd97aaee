import FleetHealth.Clock.Instant
import FleetHealth.Json.Decode
import FleetHealth.Text.Blank

/-! # Validators of a snapshot

Numbers arrive as decimal texts, since they may not fit the numbers of JSON. They are
read when they are needed, and a malformed one is an error that names its field.
-/
namespace FleetHealth.Chain

open Clock Number Text

inductive StateError where
  | invalidField (validator field raw : String)
  | invalidState (field raw : String)
  | epochElapsed (finish now : Instant)
deriving DecidableEq, Repr

def StateError.message : StateError → String
  | .invalidField validator field raw =>
    "invalid " ++ field ++ " '" ++ raw ++ "' for validator " ++ validator
  | .invalidState field raw => "invalid " ++ field ++ " '" ++ raw ++ "' in system state"
  | .epochElapsed finish now =>
    "epoch ended at " ++ finish.messageText ++ " which is before " ++ now.messageText

structure Validator where
  address : String
  name : String
  votingPower : String
  gasPrice : String
  nextEpochGasPrice : String
  stakingPoolBalance : String
  nextEpochStake : String
  commissionRate : String
  nextEpochCommissionRate : String
  netAddress : String
  p2pAddress : String
  primaryAddress : String
deriving DecidableEq, Repr

namespace Validator

def fieldNames : List String :=
  ["suiAddress", "name", "votingPower", "gasPrice", "nextEpochGasPrice", "stakingPoolSuiBalance",
   "nextEpochStake", "commissionRate", "nextEpochCommissionRate", "netAddress", "p2pAddress",
   "primaryAddress"]

def decode : Json.Decoder Validator := fun value => do
  let slots ← Json.slots fieldNames value
  let text := fun name => slots.withDefault name "" Json.asText
  .ok {
    address := ← text "suiAddress"
    name := ← text "name"
    votingPower := ← text "votingPower"
    gasPrice := ← text "gasPrice"
    nextEpochGasPrice := ← text "nextEpochGasPrice"
    stakingPoolBalance := ← text "stakingPoolSuiBalance"
    nextEpochStake := ← text "nextEpochStake"
    commissionRate := ← text "commissionRate"
    nextEpochCommissionRate := ← text "nextEpochCommissionRate"
    netAddress := ← text "netAddress"
    p2pAddress := ← text "p2pAddress"
    primaryAddress := ← text "primaryAddress" }

def toJson (v : Validator) : Json :=
  .object (fieldNames.zip ([v.address, v.name, v.votingPower, v.gasPrice, v.nextEpochGasPrice,
    v.stakingPoolBalance, v.nextEpochStake, v.commissionRate, v.nextEpochCommissionRate,
    v.netAddress, v.p2pAddress, v.primaryAddress].map .text))

def displayName (v : Validator) : String := if v.name = "" then v.address else v.name

def readField (v : Validator) (bound : Nat) (field raw : String) : Except StateError Nat :=
  match readUnsigned? bound (trim raw.toList) with
  | some n => .ok n
  | none => .error (.invalidField v.displayName field raw)

def currentPrice (v : Validator) : Except StateError Nat :=
  v.readField counterMax "gasPrice" v.gasPrice

def nextPrice (v : Validator) : Except StateError Nat :=
  v.readField counterMax "nextEpochGasPrice" v.nextEpochGasPrice

def power (v : Validator) : Except StateError Nat :=
  v.readField counterMax "votingPower" v.votingPower

def stake (v : Validator) : Except StateError Nat :=
  v.readField amountMax "stakingPoolSuiBalance" v.stakingPoolBalance

end Validator

end FleetHealth.Chain
