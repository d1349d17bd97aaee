import FleetHealth.Fleet.Host

/-! # Polling one host

The task of a host makes its calls one after the other. A failed call is noted at the
host, and the host is lost only when all of its calls failed. A task may die on the
way; then only the effort it has spent is known.
-/
namespace FleetHealth.Fleet

open Clock Exposition Gateway Net

inductive GeoMode where
  /-- Nothing is looked up. -/
  | disabled
  /-- The failure is noted. -/
  | bestEffort
  /-- The failure costs the host. -/
  | required
deriving DecidableEq, Repr

def GeoMode.name : GeoMode → String
  | .disabled => "disabled"
  | .bestEffort => "best_effort"
  | .required => "required"

/-- Calls made and milliseconds waited. -/
structure Effort where
  calls : Nat
  elapsed : Nat
deriving DecidableEq, Repr

namespace Effort

def none : Effort := ⟨0, 0⟩

def call (e : Effort) : Effort := { e with calls := e.calls + 1 }

def wait (e : Effort) (elapsed : Nat) : Effort := { e with elapsed := e.elapsed + elapsed }

end Effort

structure TaskContext where
  gateways : Gateways
  policy : CallPolicy
  geoMode : GeoMode
  now : Instant

structure Polling where
  host : Host
  attempted : Nat
  failures : List GatewayError
  effort : Effort
deriving Repr

namespace Polling

def start (host : Host) (effort : Effort) : Polling := ⟨host, 0, [], effort⟩

def call (p : Polling) : Polling :=
  { p with attempted := p.attempted + 1, effort := p.effort.call }

def wait (p : Polling) (elapsed : Nat) : Polling := { p with effort := p.effort.wait elapsed }

def fail (p : Polling) (e : GatewayError) : Polling :=
  { p with host := p.host.note e.message, failures := p.failures ++ [e] }

def attempt {α : Type} (p : Polling) (ends : CallEnd α) (take : α → Host → Option Host) :
    Except Effort Polling :=
  match ends with
  | .died => .error p.call.effort
  | .returned elapsed (.error e) => .ok ((p.call.wait elapsed).fail e)
  | .returned elapsed (.ok value) =>
    match take value p.host with
    | some host => .ok { p.call.wait elapsed with host := host }
    | none => .error (p.call.wait elapsed).effort

end Polling

def callKind (c : TaskContext) (url : String) (p : Polling) (kind : MetricKind) :
    Except Effort Polling :=
  match kind.rpcMethod? with
  | none => .ok p
  | some method =>
    p.attempt (c.policy.run method.name (c.gateways.rpc url method)) fun value host =>
      host.settle? (host.metrics.ingest kind (.ofJson value) c.now)

def callAll (c : TaskContext) (p : Polling) : Except Effort Polling :=
  match p.host.rpcUrl with
  | none => .ok p
  | some url => p.host.table.rpcCalls.foldlM (callKind c url) p

def takeSeries (scraped : Keyed Scraped) (now : Instant) (host : Host) (kind : MetricKind) :
    Option Host :=
  match scraped.get? kind.name with
  | some series => host.settle? (host.metrics.ingestScraped kind series now)
  | none => some (host.note (GatewayError.missingMetric kind.name).message)

def scrapeAll (c : TaskContext) (p : Polling) : Except Effort Polling :=
  match p.host.metricsUrl with
  | none => .ok p
  | some url =>
    let kinds := p.host.table.scraped
    p.attempt
      (c.policy.run "metrics scrape" (c.gateways.scrape url (kinds.filterMap (·.seriesSpec?))))
      fun scraped host => kinds.foldlM (takeSeries scraped c.now) host

def populate (c : TaskContext) (host : Host) (effort : Effort) : Except Effort Polling := do
  let called ← callAll c (.start host effort)
  scrapeAll c called

/-- The host, unless there were calls and all of them failed. -/
def Polling.outcome (p : Polling) : Except HostError Host :=
  match p.failures with
  | first :: _ =>
    if p.failures.length = p.attempted then
      .error (.unreachable (toString p.host.address) p.failures.length first)
    else .ok p.host
  | [] => .ok p.host

/-- The address to locate: a literal, or what the name resolves to. -/
def Host.ip? (h : Host) (g : Gateways) : Option IpAddress :=
  h.address.ip?.or (g.resolve h.address.host)

def locate (c : TaskContext) (host : Host) (effort : Effort) :
    Except Effort (Except HostError Location × Effort) :=
  let address := toString host.address
  match host.ip? c.gateways with
  | none => .ok (.error (.unresolved address), effort)
  | some ip =>
    match c.policy.run "geolocation" (c.gateways.locate ip) with
    | .died => .error effort.call
    | .returned elapsed result =>
      .ok (result.mapError (.location address), effort.call.wait elapsed)

/-- The host after the lookup, or the error that costs it. -/
def applyLocation (mode : GeoMode) (host : Host) (result : Except HostError Location) :
    Except HostError Host :=
  match result, mode with
  | .ok location, _ => .ok { host with location := some location }
  | .error e, .required => .error e
  | .error e, _ => .ok (host.note e.message)

def situate (c : TaskContext) (host : Host) :
    Except Effort (Except HostError Host × Effort) :=
  match c.geoMode with
  | .disabled => .ok (.ok host, .none)
  | mode => (locate c host .none).map fun r => (applyLocation mode host r.1, r.2)

/-- How the task of an address ends. A failed address gives back what it carried, unless
it has no URLs, for then it never had anything to keep. -/
inductive TaskEnd where
  | built (host : Host)
  | failed (e : HostError) (carried : Option (String × Metrics))
  | died
deriving Repr

structure TaskResult where
  address : Address
  ends : TaskEnd
  effort : Effort
deriving Repr

def endOf (host : Host) (outcome : Except HostError Host) : TaskEnd :=
  match outcome with
  | .ok host => .built host
  | .error e => .failed e (some host.carried)

def pollHost (c : TaskContext) (host : Host) : TaskEnd × Effort :=
  match situate c host with
  | .error spent => (.died, spent)
  | .ok (.error e, spent) => (.failed e (some host.carried), spent)
  | .ok (.ok situated, spent) =>
    match populate c situated spent with
    | .error spent => (.died, spent)
    | .ok p => (endOf p.host p.outcome, p.effort)

def collectHost (c : TaskContext) (table : Table) (address : Address) (metrics : Metrics) :
    TaskResult :=
  match Host.new table address metrics with
  | .error e => ⟨address, .failed e none, .none⟩
  | .ok host =>
    let (ends, effort) := pollHost c host
    ⟨address, ends, effort⟩

end FleetHealth.Fleet
