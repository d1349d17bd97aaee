import FleetHealth.CommandLine
import FleetHealth.Fleet.Cycle
import FleetHealth.Json.Printer
import FleetHealth.Settings.Encode

/-! # The program

What the program does between reading its files and writing its output. The addresses in
a configuration are read with a reader of URLs.
-/
namespace FleetHealth.Program

open CommandLine Fleet Gateway Net Settings

inductive Failure where
  | unreadable
  | invalid (e : ConfigError)
  | cycle (e : CycleError)
  | overflow
  | noRoom
deriving DecidableEq, Repr

def Failure.message : Failure → String
  | .unreadable => "TOML parse error"
  | .invalid e => e.message
  | .cycle e => e.message
  | .overflow => "attempt to add with overflow"
  | .noRoom => "capacity overflow"

/-- What the program exits with; an overflow is none of the errors that it reports. -/
def Failure.exitCode : Failure → Nat
  | .overflow | .noRoom => 101
  | .unreadable | .invalid _ | .cycle _ => 1

def load (file : Option String) : Except Failure Config :=
  match file with
  | none => .ok .default
  | some text =>
    match Config.load? text with
    | some config => .ok config
    | none => .error .unreadable

def override (o : Options) (c : Config) : Config :=
  let c := c.withGeoToken o.geoToken
  let c := match o.interval with
    | some secs => c.withPollInterval secs
    | none => c
  match o.apiPort with
  | some port => c.withApiPort port
  | none => c

variable (urls : List Char → Except UrlError Url)

def configure (o : Options) (file : Option String) : Except Failure Config := do
  let config := override o (← load file)
  (config.validate urls).mapError .invalid
  .ok config

def collector? (c : Config) : Option Collector :=
  (RateWindow.Capacity.ofNat? c.rateWindow).map fun window =>
    { geoMode := c.geolocation.mode
      callTimeout := c.callTimeoutSecs * 1000
      window := window }

def controller (c : Config) (collector : Collector) : Except ConfigError Controller :=
  (c.allAddresses urls).map fun endpoints =>
    { collector := collector
      endpoints := endpoints
      tolerance := c.tolerance
      priceField := c.priceField }

def start (c : Config) : Monitor := ⟨.new c.tables, .zero⟩

def cycle (c : Config) (m : Monitor) (w : World) : Except Failure (Monitor × Except CycleError CycleReport) := do
  let some collector := collector? c | .error .noRoom
  let controller ← (controller urls c collector).mapError .invalid
  match m.run controller w id with
  | (m, .ok report) => .ok (m, .ok report)
  | (m, .error (.failed e)) => .ok (m, .error e)
  | (_, .error .overflow) => .error .overflow

def once (c : Config) (w : World) : Except Failure String := do
  let (_, result) ← cycle urls c (start c) w
  match result with
  | .ok report => .ok report.toJson.pretty
  | .error e => .error (.cycle e)

end FleetHealth.Program
