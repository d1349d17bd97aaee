import FleetHealth.Number.Numeral
import FleetHealth.Text.Blank

/-! # The command line

Options have a long name, and some a short one. A value follows its option as the next
argument or after an equals sign; after a short name it may also follow at once. No
option may be given twice.
-/
namespace FleetHealth.CommandLine

open Number Text

structure Options where
  config : Option String
  logLevel : Option String
  interval : Option Nat
  apiPort : Option Nat
  geoToken : Option String
  once : Bool
  writeDefaultConfig : Bool
deriving DecidableEq, Repr

def Options.nothing : Options := ⟨none, none, none, none, none, false, false⟩

def defaultConfigPath : String := "fleet-monitor.toml"

def Options.configPath (o : Options) : String := o.config.getD defaultConfigPath

inductive Request where
  | run (o : Options)
  | help
  | version
deriving DecidableEq, Repr

inductive Flag where
  | config
  | logLevel
  | interval
  | apiPort
  | geoToken
  | once
  | writeDefaultConfig
  | help
  | version
deriving DecidableEq, Repr

def Flag.ofLong? : String → Option Flag
  | "config" => some .config
  | "log-level" => some .logLevel
  | "interval" => some .interval
  | "api-port" => some .apiPort
  | "geo-token" => some .geoToken
  | "once" => some .once
  | "write-default-config" => some .writeDefaultConfig
  | "help" => some .help
  | "version" => some .version
  | _ => none

def Flag.ofShort? : Char → Option Flag
  | 'c' => some .config
  | 'i' => some .interval
  | 'h' => some .help
  | 'V' => some .version
  | _ => none

structure Given where
  flag : Flag
  attached : Option String
deriving DecidableEq, Repr

def dropEquals : List Char → List Char
  | '=' :: rest => rest
  | s => s

def readArgument? (arg : List Char) : Option Given :=
  match arg with
  | '-' :: '-' :: name =>
    match cutFirst '=' name with
    | some (name, value) =>
      (Flag.ofLong? (String.ofList name)).map fun flag => ⟨flag, some (String.ofList value)⟩
    | none => (Flag.ofLong? (String.ofList name)).map fun flag => ⟨flag, none⟩
  | '-' :: c :: rest =>
    (Flag.ofShort? c).map fun flag =>
      ⟨flag, if rest = [] then none else some (String.ofList (dropEquals rest))⟩
  | _ => none

def isValue (arg : String) : Bool := !arg.startsWith "-" || arg = "-"

/-- A port number; zero is one here. -/
def readPort? (s : List Char) : Option Nat :=
  (readSigned? s).bind fun n => if 0 ≤ n ∧ n ≤ portMax then some n.toNat else none

def setValue? (o : Options) (flag : Flag) (value : String) : Option Options :=
  match flag with
  | .config =>
    if o.config.isSome || value = "" then none else some { o with config := some value }
  | .logLevel => if o.logLevel.isSome then none else some { o with logLevel := some value }
  | .interval =>
    if o.interval.isSome then none
    else (readCounter? value.toList).map fun n => { o with interval := some n }
  | .apiPort =>
    if o.apiPort.isSome then none
    else (readPort? value.toList).map fun n => { o with apiPort := some n }
  | .geoToken => if o.geoToken.isSome then none else some { o with geoToken := some value }
  | .once | .writeDefaultConfig | .help | .version => none

/-- Reads the arguments; none if they make no sense. Help and version are answered as soon
as they are read. -/
def readArguments? : List String → Options → Option Request
  | [], o => some (.run o)
  | ["--"], o => some (.run o)
  | arg :: rest, o =>
    match readArgument? arg.toList with
    | none => none
    | some ⟨.help, _⟩ => some .help
    | some ⟨.version, _⟩ => some .version
    | some ⟨.once, none⟩ => if o.once then none else readArguments? rest { o with once := true }
    | some ⟨.writeDefaultConfig, none⟩ =>
      if o.writeDefaultConfig then none
      else readArguments? rest { o with writeDefaultConfig := true }
    | some ⟨flag, some value⟩ => (setValue? o flag value).bind (readArguments? rest)
    | some ⟨flag, none⟩ =>
      match rest with
      | value :: rest =>
        if isValue value then (setValue? o flag value).bind (readArguments? rest) else none
      | [] => none

end FleetHealth.CommandLine
