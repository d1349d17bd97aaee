import FleetHealth.Fleet.Status
import FleetHealth.Gateway.Call
import FleetHealth.Metrics.Ingest
import FleetHealth.Net.AddressReader

/-! # Hosts

A host is built anew in every cycle from an address and the metrics carried over from
the cycle before.
-/
namespace FleetHealth.Fleet

open Gateway Net

inductive HostError where
  | address (missing : MissingPort)
  | location (host : String) (e : GatewayError)
  | unresolved (host : String)
  | unreachable (host : String) (failures : Nat) (first : GatewayError)
  | aborted (host : String)
deriving DecidableEq, Repr

def HostError.message : HostError → String
  | .address missing => missing.address ++ ": " ++ (AddressError.missingPort missing).message
  | .location host e => host ++ ": geolocation failed: " ++ e.message
  | .unresolved host => host ++ ": cannot resolve host for geolocation"
  | .unreachable host failures first =>
    s!"{host}: all {failures} gateway calls failed, first: {first.message}"
  | .aborted host => host ++ ": collector task aborted: the task died"

structure Host where
  table : Table
  address : Address
  rpcUrl : Option String
  metricsUrl : Option String
  status : Status
  location : Option Location
  metrics : Metrics
  /-- Failures that did not cost the host. -/
  errors : List String
deriving Repr

def wanted (wants : Bool) (url : Except MissingPort String) : Except HostError (Option String) :=
  if wants then (url.map some).mapError .address else .ok none

namespace Host

def new (table : Table) (address : Address) (metrics : Metrics) : Except HostError Host := do
  let rpcUrl ← wanted table.usesRpc address.rpcUrl
  let metricsUrl ← wanted table.usesMetrics address.metricsUrl
  .ok {
    table, address, rpcUrl, metricsUrl, metrics
    status := .grey
    location := none
    errors := [] }

def key (h : Host) : String := h.address.key

def carried (h : Host) : String × Metrics := (h.key, h.metrics.carryForward)

def note (h : Host) (message : String) : Host := { h with errors := h.errors ++ [message] }

/-- The host after a value was taken in or refused; none when that took the task down. -/
def settle? (h : Host) (r : Ingest) : Option Host :=
  let settled := { h with metrics := r.metrics }
  match r.verdict with
  | .stored => some settled
  | .refused e => some (settled.note e.message)
  | .aborted => none

end Host

end FleetHealth.Fleet
