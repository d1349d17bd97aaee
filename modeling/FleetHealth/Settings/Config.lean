import FleetHealth.Chain.Gas
import FleetHealth.Fleet.Polling
import FleetHealth.Metrics.Health
import FleetHealth.Net.AddressReader

/-! # Configuration

How often and how patiently the fleet is polled, what is tolerated, and the endpoints
of each table. The addresses of endpoints are read with a reader of URLs.
-/
namespace FleetHealth.Settings

open Chain Fleet Net

structure Endpoint where
  address : String
  rpcPort : Option Nat
  metricsPort : Option Nat
  peerPort : Option Nat
deriving DecidableEq, Repr

def Endpoint.ofAddress (address : String) : Endpoint := ⟨address, none, none, none⟩

structure Geolocation where
  mode : GeoMode
  /-- The access token of the service. -/
  token : Option String
deriving DecidableEq, Repr

structure Config where
  pollIntervalSecs : Nat
  callTimeoutSecs : Nat
  rateWindow : Nat
  apiPort : Nat
  enableApi : Bool
  priceField : PriceField
  tolerance : Tolerance
  geolocation : Geolocation
  /-- The tables that are polled. -/
  tables : TableSet
  endpoints : PerTable (List Endpoint)
deriving DecidableEq, Repr

def Config.default : Config where
  pollIntervalSecs := 5
  callTimeoutSecs := 5
  rateWindow := 5
  apiPort := 9185
  enableApi := true
  priceField := .nextEpoch
  tolerance := .default
  geolocation := ⟨.disabled, none⟩
  tables := .const true
  endpoints := ⟨[.ofAddress "https://fullnode.mainnet.sui.io:443"], [], []⟩

/-- A port: the one that is set, else the one in the address, else the default if the
table needs one. -/
def choosePort (set found : Option Nat) (needed : Bool) (default : Nat) : Option Nat :=
  match set, found with
  | some port, _ => some port
  | none, some port => some port
  | none, none => if needed then some default else none

def Endpoint.resolve (urls : List Char → Except UrlError Url) (e : Endpoint) (table : Table) :
    Except AddressError Address :=
  (Address.parse urls e.address).map fun a =>
    { a with
      rpcPort := choosePort e.rpcPort a.rpcPort table.usesRpc Address.defaultRpcPort
      metricsPort :=
        choosePort e.metricsPort a.metricsPort table.usesMetrics Address.defaultMetricsPort
      peerPort := e.peerPort.or a.peerPort }

inductive ConfigError where
  | noReference
  | referenceDisabled
  | shortWindow (window : Nat)
  | noTimeout
  | noInterval
  | missingToken
  | endpoint (table : Table) (address : String) (e : AddressError)
deriving DecidableEq, Repr

def ConfigError.message : ConfigError → String
  | .noReference => "at least one rpc endpoint is required as reference"
  | .referenceDisabled => "the rpc table provides the reference host and cannot be disabled"
  | .shortWindow window => s!"rate_window ({window}) must be at least 2"
  | .noTimeout => "call_timeout_secs must be greater than zero"
  | .noInterval => "poll_interval_secs must be greater than zero"
  | .missingToken => "geolocation mode 'required' needs an access token"
  | .endpoint table address e => table.name ++ " endpoint '" ++ address ++ "': " ++ e.message

namespace Config

def activeTables (c : Config) : List Table := c.tables.toList

variable (urls : List Char → Except UrlError Url)

def addresses (c : Config) (table : Table) : Except ConfigError (List Address) :=
  (c.endpoints.get table).mapM fun e =>
    (e.resolve urls table).mapError (.endpoint table e.address)

/-- The addresses of all tables; those of the reference are looked at first. -/
def allAddresses (c : Config) : Except ConfigError (PerTable (List Address)) := do
  let rpc ← c.addresses urls .rpc
  let node ← c.addresses urls .node
  let validator ← c.addresses urls .validator
  .ok ⟨rpc, node, validator⟩

def ensure (condition : Bool) (e : ConfigError) : Except ConfigError Unit :=
  if condition then .ok () else .error e

/-- The first thing that is wrong, if any. -/
def validate (c : Config) : Except ConfigError Unit := do
  ensure (!c.endpoints.rpc.isEmpty) .noReference
  ensure c.tables.rpc .referenceDisabled
  ensure (2 ≤ c.rateWindow) (.shortWindow c.rateWindow)
  ensure (c.callTimeoutSecs ≠ 0) .noTimeout
  ensure (c.pollIntervalSecs ≠ 0) .noInterval
  ensure (c.geolocation.mode ≠ .required || c.geolocation.token.isSome) .missingToken
  let _ ← c.allAddresses urls
  .ok ()

def withPollInterval (c : Config) (secs : Nat) : Config := { c with pollIntervalSecs := secs }

def withApiPort (c : Config) (port : Nat) : Config := { c with apiPort := port }

def withGeoToken (c : Config) (token : Option String) : Config :=
  { c with geolocation := { c.geolocation with token := token.or c.geolocation.token } }

end Config

end FleetHealth.Settings
