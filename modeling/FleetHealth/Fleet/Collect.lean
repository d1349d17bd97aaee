import FleetHealth.Fleet.Polling

/-! # Collecting a table

One task for each distinct address of a table, all at the same time. Their results
arrive as they finish; a task that died never delivers one, so its address is
reported last. An address that gives no host keeps the metrics carried for it.
-/
namespace FleetHealth.Fleet

open Clock Gateway Net

def freshAddresses : List String → List Address → List Address
  | _, [] => []
  | seen, a :: rest =>
    if a.key ∈ seen then freshAddresses seen rest
    else a :: freshAddresses (a.key :: seen) rest

def distinctAddresses (addresses : List Address) : List Address := freshAddresses [] addresses

structure Collector where
  geoMode : GeoMode
  /-- The deadline of a call in milliseconds. -/
  callTimeout : Nat
  /-- Samples in a rate window. -/
  window : RateWindow.Capacity
deriving DecidableEq, Repr

structure Collected where
  hosts : List Host
  errors : List HostError
  /-- What was carried for addresses without a host, by key. -/
  retained : Keyed Metrics
deriving Repr

structure NoHosts where
  table : Table
  errors : List HostError
  retained : Keyed Metrics
deriving Repr

def NoHosts.message (e : NoHosts) : String :=
  s!"no {e.table.name} hosts collected ({e.errors.length} failures)"

structure Surroundings where
  gateways : Address → Gateways
  now : Instant
  cancelled : Bool

namespace Collector

def context (c : Collector) (s : Surroundings) (address : Address) : TaskContext where
  gateways := s.gateways address
  policy := ⟨c.callTimeout, s.cancelled⟩
  geoMode := c.geoMode
  now := s.now

def startingMetrics (c : Collector) (carried : Keyed Metrics) (address : Address) : Metrics :=
  (carried.get? address.key).getD (.new c.window)

def tasks (c : Collector) (s : Surroundings) (table : Table) (addresses : List Address)
    (carried : Keyed Metrics) : List TaskResult :=
  (distinctAddresses addresses).map fun address =>
    collectHost (c.context s address) table address (c.startingMetrics carried address)

end Collector

/-- The results in the order in which the tasks finish; those that finish together keep
the order of their addresses. -/
def arrivals (results : List TaskResult) : List TaskResult :=
  results.mergeSort fun a b => a.effort.elapsed ≤ b.effort.elapsed

def retain (retained : Keyed Metrics) : Option (String × Metrics) → Keyed Metrics
  | some (key, metrics) => retained.insert key metrics
  | none => retained

def Collected.add (c : Collected) (r : TaskResult) : Collected :=
  match r.ends with
  | .built host => { c with hosts := c.hosts ++ [host] }
  | .failed e carried =>
    { c with errors := c.errors ++ [e], retained := retain c.retained carried }
  | .died => c

def diedError? (r : TaskResult) : Option HostError :=
  match r.ends with
  | .died => some (.aborted (toString r.address))
  | .built _ | .failed _ _ => none

def gather (results : List TaskResult) : Collected :=
  let delivered := (arrivals results).foldl Collected.add ⟨[], [], .empty⟩
  { delivered with errors := delivered.errors ++ results.filterMap diedError? }

def conclude (table : Table) (c : Collected) : Except NoHosts Collected :=
  if c.hosts.isEmpty then .error ⟨table, c.errors, c.retained⟩ else .ok c

def Collector.collect (c : Collector) (s : Surroundings) (table : Table)
    (addresses : List Address) (carried : Keyed Metrics) : Except NoHosts Collected :=
  conclude table (gather (c.tasks s table addresses carried))

end FleetHealth.Fleet
