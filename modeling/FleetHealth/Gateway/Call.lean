import FleetHealth.Exposition.Select
import FleetHealth.Gateway.Error
import FleetHealth.Gateway.Location
import FleetHealth.Metrics.Kind
import FleetHealth.Net.Ip

/-! # Gateway calls

The collector sees the world through `Gateways`: functions from calls to replies. A
reply comes some time after the call, or never, or takes the caller down. `CallPolicy`
puts a deadline on every call, and lets all of them end at once in a cancelled cycle.
-/
namespace FleetHealth.Gateway

open Exposition Net

inductive Reply (α : Type) where
  /-- The call returns after a number of milliseconds. -/
  | after (delay : Nat) (result : Except GatewayError α)
  | never
  /-- The task that made the call dies. -/
  | fatal
deriving Repr

inductive CallEnd (α : Type) where
  | returned (elapsed : Nat) (result : Except GatewayError α)
  | died
deriving Repr

structure CallPolicy where
  /-- The deadline of a call in milliseconds. -/
  timeout : Nat
  /-- Is the cycle cancelled? -/
  cancelled : Bool
deriving DecidableEq, Repr

namespace CallPolicy

/-- When the deadline is noticed: not within the millisecond it was set in. -/
def deadline (p : CallPolicy) : Nat := max p.timeout 1

def runOut {α : Type} (p : CallPolicy) (operation : String) : CallEnd α :=
  .returned p.deadline (.error (.timeout operation p.timeout))

def run {α : Type} (p : CallPolicy) (operation : String) (reply : Reply α) : CallEnd α :=
  if p.cancelled then .returned 0 (.error (.cancelled operation))
  else match reply with
    | .after delay result => if delay ≤ p.timeout then .returned delay result else p.runOut operation
    | .never => p.runOut operation
    | .fatal => .died

end CallPolicy

structure Gateways where
  /-- A remote call to an endpoint. -/
  rpc : String → RpcMethod → Reply Json
  /-- A scrape of an endpoint for the requested series. -/
  scrape : String → List SeriesSpec → Reply (Keyed Scraped)
  /-- The location of an address. -/
  locate : IpAddress → Reply Location
  /-- The address of a host name. -/
  resolve : String → Option IpAddress

end FleetHealth.Gateway
