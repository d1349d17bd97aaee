import FleetHealth.Settings.Decode
import FleetHealth.Toml.Printer
import FleetHealth.Toml.Reader

/-! # Configurations as JSON and as files

A file has the plain settings first, then the sections, then one section for each
endpoint. A list without endpoints is a plain setting.
-/
namespace FleetHealth.Settings

open Fleet Toml

def Endpoint.ports (e : Endpoint) : List (String × Nat) :=
  [("rpc_port", e.rpcPort), ("metrics_port", e.metricsPort), ("peer_port", e.peerPort)].filterMap
    fun p => p.2.map fun port => (p.1, port)

def Endpoint.toJson (e : Endpoint) : Json :=
  .object (("address", .text e.address) :: e.ports.map fun p => (p.1, .nat p.2))

def Geolocation.texts (g : Geolocation) : List (String × String) :=
  ("mode", g.mode.name) :: (g.token.map fun token => ("token", token)).toList

def Config.toJson (c : Config) : Json :=
  .object [("poll_interval_secs", .nat c.pollIntervalSecs),
    ("call_timeout_secs", .nat c.callTimeoutSecs),
    ("rate_window", .nat c.rateWindow),
    ("api_port", .nat c.apiPort),
    ("enable_api", .bool c.enableApi),
    ("gas_price_field", .text c.priceField.name),
    ("tolerance", .object [("tps", .nat c.tolerance.tps),
      ("transactions", .nat c.tolerance.transactions),
      ("checkpoints", .nat c.tolerance.checkpoints)]),
    ("geolocation", .object (c.geolocation.texts.map fun t => (t.1, .text t.2))),
    ("tables", .object [("rpc", .bool c.tables.rpc), ("nodes", .bool c.tables.node),
      ("validators", .bool c.tables.validator)]),
    ("rpc", .list (c.endpoints.rpc.map Endpoint.toJson)),
    ("nodes", .list (c.endpoints.node.map Endpoint.toJson)),
    ("validators", .list (c.endpoints.validator.map Endpoint.toJson))]

/-- The list of a table as a plain setting, if it is empty. -/
def emptyList (name : String) (endpoints : List Endpoint) : List (String × Scalar) :=
  if endpoints.isEmpty then [(name, .emptyList)] else []

def Endpoint.section (name : String) (e : Endpoint) : Section :=
  ⟨some ("[[" ++ name ++ "]]"),
    ("address", .text e.address) :: e.ports.map fun p => (p.1, .integer p.2)⟩

namespace Config

def plainSettings (c : Config) : List (String × Scalar) :=
  [("poll_interval_secs", .integer c.pollIntervalSecs),
    ("call_timeout_secs", .integer c.callTimeoutSecs),
    ("rate_window", .integer c.rateWindow),
    ("api_port", .integer c.apiPort),
    ("enable_api", .bool c.enableApi),
    ("gas_price_field", .text c.priceField.name)]
  ++ emptyList "rpc" c.endpoints.rpc
  ++ emptyList "nodes" c.endpoints.node
  ++ emptyList "validators" c.endpoints.validator

def sections (c : Config) : List Section :=
  [⟨none, c.plainSettings⟩,
    ⟨some "[tolerance]", [("tps", .integer c.tolerance.tps),
      ("transactions", .integer c.tolerance.transactions),
      ("checkpoints", .integer c.tolerance.checkpoints)]⟩,
    ⟨some "[geolocation]", c.geolocation.texts.map fun t => (t.1, .text t.2)⟩,
    ⟨some "[tables]", [("rpc", .bool c.tables.rpc), ("nodes", .bool c.tables.node),
      ("validators", .bool c.tables.validator)]⟩]
  ++ c.endpoints.rpc.map (Endpoint.section "rpc")
  ++ c.endpoints.node.map (Endpoint.section "nodes")
  ++ c.endpoints.validator.map (Endpoint.section "validators")

/-- The text of a file; none if a number does not fit its notation. -/
def save? (c : Config) : Option String := write? c.sections

/-- The configuration in a file; none if the text is no document or does not decode. -/
def load? (text : String) : Option Config := do
  let value ← Toml.parse? text
  (Config.decode .toml value).toOption

end Config

end FleetHealth.Settings
