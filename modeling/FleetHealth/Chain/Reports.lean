import FleetHealth.Chain.Gas
import FleetHealth.Chain.SystemState

/-! # Reports against validators -/
namespace FleetHealth.Chain

open Number

structure ValidatorReport where
  address : String
  name : String
  reporters : List String
  reportersPower : Nat
  slashingPercentage : Nat
deriving DecidableEq, Repr

/-- Why there are no reports: a power is refused, or the powers of some reporters together
overflow their counter, which nothing provides for. -/
inductive ReportFault where
  | refused (e : StateError)
  | overflow
deriving DecidableEq, Repr

def ValidatorReport.toJson (r : ValidatorReport) : Json :=
  .object [("address", .text r.address), ("name", .text r.name), ("reporters", .texts r.reporters),
    ("reporters_voting_power", .nat r.reportersPower),
    ("slashing_percentage", .nat r.slashingPercentage)]

def addressAndPower (v : Validator) : Except StateError (String × Nat) :=
  v.power.map fun power => (v.address, power)

/-- The voting power by address; of two validators with one address the later counts. -/
def powers (vs : List Validator) : Except StateError (Keyed Nat) :=
  (vs.mapM addressAndPower).map .ofEntries

/-- The power of the reporters together; those that are not active have none. -/
def reportersPower (powers : Keyed Nat) (reporters : List String) : Except ReportFault Nat :=
  match sumCounters? (reporters.filterMap powers.get?) with
  | some power => .ok power
  | none => .error .overflow

def SystemState.nameOf (s : SystemState) (address : String) : String :=
  match s.activeValidators.find? (·.address = address) with
  | some v => v.name
  | none => ""

def SystemState.report (s : SystemState) (powers : Keyed Nat) (record : String × List String) :
    Except ReportFault ValidatorReport :=
  (reportersPower powers record.2).map fun power =>
    ⟨record.1, s.nameOf record.1, record.2, power, slashingPercentage power⟩

def SystemState.reports (s : SystemState) : Except ReportFault (List ValidatorReport) := do
  let powers ← (powers s.activeValidators).mapError .refused
  s.reportRecords.mapM (s.report powers)

end FleetHealth.Chain
