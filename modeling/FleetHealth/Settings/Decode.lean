import FleetHealth.Json.Decode
import FleetHealth.Settings.Config

/-! # Decoding a configuration

Every setting has a default, so an empty record is a configuration. A choice is written
by its name, or as a record whose only field has that name and holds nothing; what
nothing is depends on the format.
-/
namespace FleetHealth.Settings

open Chain Fleet Json Number

inductive FileFormat where
  | json
  | toml
deriving DecidableEq, Repr

def FileFormat.isNothing : FileFormat → Json → Bool
  | .json, .null => true
  | .toml, .object [] => true
  | .toml, .list [] => true
  | _, _ => false

def choose {α : Type} (options : List (String × α)) (name : String) : Except Mismatch α :=
  match options.lookup name with
  | some a => .ok a
  | none => .error (.expected "a known name")

def asChoice {α : Type} (n : FileFormat) (options : List (String × α)) : Decoder α
  | .text name => choose options name
  | .object [(name, value)] => do
    let a ← choose options name
    if n.isNothing value then .ok a else .error (.expected "nothing")
  | _ => .error (.expected "a name")

def priceFields : List (String × PriceField) :=
  [PriceField.current, .nextEpoch].map fun f => (f.name, f)

def geoModes : List (String × GeoMode) :=
  [GeoMode.disabled, .bestEffort, .required].map fun m => (m.name, m)

def asPort : Decoder Nat := asNat portMax

def Endpoint.decode : Decoder Endpoint := fun value => do
  let slots ← slots ["address", "rpc_port", "metrics_port", "peer_port"] value
  .ok {
    address := ← slots.required "address" asText
    rpcPort := ← slots.optional "rpc_port" asPort
    metricsPort := ← slots.optional "metrics_port" asPort
    peerPort := ← slots.optional "peer_port" asPort }

def decodeTolerance : Decoder Tolerance := fun value => do
  let slots ← slots ["tps", "transactions", "checkpoints"] value
  let counter := fun name default => slots.withDefault name default (asNat counterMax)
  .ok {
    tps := ← counter "tps" Tolerance.default.tps
    transactions := ← counter "transactions" Tolerance.default.transactions
    checkpoints := ← counter "checkpoints" Tolerance.default.checkpoints }

def decodeGeolocation (n : FileFormat) : Decoder Geolocation := fun value => do
  let slots ← slots ["mode", "token"] value
  .ok {
    mode := ← slots.withDefault "mode" .disabled (asChoice n geoModes)
    token := ← slots.optional "token" asText }

def decodeTables : Decoder TableSet := fun value => do
  let slots ← slots ["rpc", "nodes", "validators"] value
  let switch := fun name => slots.withDefault name true asBool
  .ok {
    rpc := ← switch "rpc"
    node := ← switch "nodes"
    validator := ← switch "validators" }

def Config.fieldNames : List String :=
  ["poll_interval_secs", "call_timeout_secs", "rate_window", "api_port", "enable_api",
   "gas_price_field", "tolerance", "geolocation", "tables", "rpc", "nodes", "validators"]

def Config.decode (n : FileFormat) : Decoder Config := fun value => do
  let slots ← slots fieldNames value
  let d := Config.default
  let counter := fun name default => slots.withDefault name default (asNat counterMax)
  let endpoints := fun name default => slots.withDefault name default (asList Endpoint.decode)
  .ok {
    pollIntervalSecs := ← counter "poll_interval_secs" d.pollIntervalSecs
    callTimeoutSecs := ← counter "call_timeout_secs" d.callTimeoutSecs
    rateWindow := ← counter "rate_window" d.rateWindow
    apiPort := ← slots.withDefault "api_port" d.apiPort asPort
    enableApi := ← slots.withDefault "enable_api" d.enableApi asBool
    priceField := ← slots.withDefault "gas_price_field" d.priceField (asChoice n priceFields)
    tolerance := ← slots.withDefault "tolerance" d.tolerance decodeTolerance
    geolocation := ← slots.withDefault "geolocation" d.geolocation (decodeGeolocation n)
    tables := ← slots.withDefault "tables" d.tables decodeTables
    endpoints := {
      rpc := ← endpoints "rpc" d.endpoints.rpc
      node := ← endpoints "nodes" d.endpoints.node
      validator := ← endpoints "validators" d.endpoints.validator } }

end FleetHealth.Settings
