import FleetHealth.Chain.Validator
import FleetHealth.Keyed

/-! # Snapshots of the chain

The system state lists the active validators and when the current epoch began. The
yields of the validators come from another call and are merged in later.
-/
namespace FleetHealth.Chain

open Clock Number Text

structure SystemState where
  epoch : String
  protocolVersion : String
  referenceGasPrice : String
  totalStake : String
  storageFundTotalObjectStorageRebates : String
  storageFundNonRefundableBalance : String
  stakeSubsidyBalance : String
  epochStartTimestampMs : String
  epochDurationMs : String
  activeValidators : List Validator
  /-- Each with its epochs at risk, a number on some nodes and a text on others. -/
  atRiskValidators : List (String × Json)
  /-- Each reported address with the addresses that report it. -/
  reportRecords : List (String × List String)
  /-- The yields by address; not part of the answer itself. -/
  yields : Keyed Binary64
deriving Repr

structure ValidatorYield where
  address : String
  yield : Binary64
deriving DecidableEq, Repr

structure ValidatorYields where
  yields : List ValidatorYield
  epoch : String
deriving DecidableEq, Repr

/-- The timing of an epoch; lengths are in nanoseconds. -/
structure EpochInfo where
  epoch : Nat
  start : Instant
  finish : Instant
  duration : Int
  timeToNext : Int
deriving DecidableEq, Repr

/-- Why there is no timing: the snapshot is refused, or its end is beyond the calendar. -/
inductive EpochFault where
  | refused (e : StateError)
  | beyondCalendar
deriving DecidableEq, Repr

def ValidatorYield.decode : Json.Decoder ValidatorYield := fun value => do
  let slots ← Json.slots ["address", "apy"] value
  .ok {
    address := ← slots.withDefault "address" "" Json.asText
    yield := ← slots.withDefault "apy" .zero Json.asDouble }

def ValidatorYields.decode : Json.Decoder ValidatorYields := fun value => do
  let slots ← Json.slots ["apys", "epoch"] value
  .ok {
    yields := ← slots.withDefault "apys" [] (Json.asList ValidatorYield.decode)
    epoch := ← slots.withDefault "epoch" "" Json.asText }

def wholeSeconds (ns : Int) : Int := ns.tdiv nsPerSecond

def EpochInfo.toJson (e : EpochInfo) : Json :=
  .object [("epoch", .nat e.epoch), ("start", .text e.start.reportText),
    ("end", .text e.finish.reportText), ("duration", .int (wholeSeconds e.duration)),
    ("time_to_next_epoch", .int (wholeSeconds e.timeToNext))]

namespace SystemState

def fieldNames : List String :=
  ["epoch", "protocolVersion", "referenceGasPrice", "totalStake",
   "storageFundTotalObjectStorageRebates", "storageFundNonRefundableBalance",
   "stakeSubsidyBalance", "epochStartTimestampMs", "epochDurationMs", "activeValidators",
   "atRiskValidators", "validatorReportRecords"]

def asAnything : Json.Decoder Json := fun value => .ok value.canonical

def decode : Json.Decoder SystemState := fun value => do
  let slots ← Json.slots fieldNames value
  let text := fun name => slots.withDefault name "" Json.asText
  .ok {
    epoch := ← text "epoch"
    protocolVersion := ← text "protocolVersion"
    referenceGasPrice := ← text "referenceGasPrice"
    totalStake := ← text "totalStake"
    storageFundTotalObjectStorageRebates := ← text "storageFundTotalObjectStorageRebates"
    storageFundNonRefundableBalance := ← text "storageFundNonRefundableBalance"
    stakeSubsidyBalance := ← text "stakeSubsidyBalance"
    epochStartTimestampMs := ← text "epochStartTimestampMs"
    epochDurationMs := ← text "epochDurationMs"
    activeValidators := ← slots.withDefault "activeValidators" [] (Json.asList Validator.decode)
    atRiskValidators :=
      ← slots.withDefault "atRiskValidators" [] (Json.asList (Json.asPair Json.asText asAnything))
    reportRecords :=
      ← slots.withDefault "validatorReportRecords" []
          (Json.asList (Json.asPair Json.asText (Json.asList Json.asText)))
    yields := .empty }

def toJson (s : SystemState) : Json :=
  .object (fieldNames.zip
    ([s.epoch, s.protocolVersion, s.referenceGasPrice, s.totalStake,
      s.storageFundTotalObjectStorageRebates, s.storageFundNonRefundableBalance,
      s.stakeSubsidyBalance, s.epochStartTimestampMs, s.epochDurationMs].map Json.text
     ++ [.list (s.activeValidators.map Validator.toJson),
      .list (s.atRiskValidators.map fun r => .list [.text r.1, r.2]),
      .list (s.reportRecords.map fun r => .list [.text r.1, .texts r.2])])
   ++ [("validatorsApy", .object (s.yields.entries.map fun e => (e.1, .double e.2)))])

def readField {α : Type} (read : List Char → Option α) (field raw : String) :
    Except StateError α :=
  match read (trim raw.toList) with
  | some n => .ok n
  | none => .error (.invalidState field raw)

def epochNumber (s : SystemState) : Except StateError Nat :=
  readField readCounter? "epoch" s.epoch

def referencePrice (s : SystemState) : Except StateError Nat :=
  readField readCounter? "referenceGasPrice" s.referenceGasPrice

def epochStart (s : SystemState) : Except StateError (Int × Int) := do
  let start ← readField readSigned? "epochStartTimestampMs" s.epochStartTimestampMs
  let duration ← readField readSigned? "epochDurationMs" s.epochDurationMs
  .ok (start, duration)

/-- Begin, end and remaining time of the epoch. A begin beyond the calendar is refused
like a malformed one; an end beyond it is not provided for. -/
def epochInfo (s : SystemState) (now : Instant) : Except EpochFault EpochInfo := do
  let (startMs, durationMs) ← s.epochStart.mapError .refused
  let some start := Instant.ofMs? startMs
    | .error (.refused (.invalidState "epochStartTimestampMs" s.epochStartTimestampMs))
  let some finish := Instant.ofMs? (startMs + durationMs) | .error .beyondCalendar
  if finish.ns < now.ns then .error (.refused (.epochElapsed finish now))
  let epoch ← s.epochNumber.mapError .refused
  .ok ⟨epoch, start, finish, durationMs * nsPerMs, finish.ns - now.ns⟩

/-- Replaces the yields; of two with one address the later stays. -/
def setYields (s : SystemState) (answer : ValidatorYields) : SystemState :=
  { s with yields := .ofEntries (answer.yields.map fun y => (y.address, y.yield)) }

end SystemState

end FleetHealth.Chain
