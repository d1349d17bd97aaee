import FleetHealth.Gateway.Client
import FleetHealth.Program
import Std.Time

/-! # The command

Connections are left to those who have a network: this command runs with gateways that
reach nobody, so it checks configurations and says what it would say in a fleet that is
down.
-/
namespace FleetHealth

open CommandLine Clock Fleet Gateway Net Settings

def now : IO Instant := do
  let t ← Std.Time.Timestamp.now
  return ⟨t.toNanosecondsSinceUnixEpoch.val⟩

def offlineWorld (c : Config) : IO World := do
  let t ← now
  let gateways := httpGateways offline (c.callTimeoutSecs * 1000) c.geolocation.token fun _ => none
  return { gateways := fun _ _ => gateways, started := t, now := t, finished := t, cancelled := false }

def urls : List Char → Except UrlError Url := readUrl asciiNames

def fail (message : String) (code : UInt32) : IO UInt32 := do
  IO.eprintln ("Error: " ++ message)
  return code

def giveUp (e : Program.Failure) : IO UInt32 := fail e.message (.ofNat e.exitCode)

/-- The pause between two cycles in milliseconds, cut off at the longest one there is. -/
def pauseMs (c : Config) : UInt32 := .ofNat (min (c.pollIntervalSecs * 1000) 4294967295)

/-- Polls for ever. -/
partial def poll (c : Config) (m : Monitor) : IO UInt32 := do
  match Program.cycle urls c m (← offlineWorld c) with
  | .error e => giveUp e
  | .ok (m, result) =>
    match result with
    | .ok report => IO.eprintln s!"{report.hosts.length} hosts, {report.warnings.length} warnings"
    | .error e => IO.eprintln ("cycle failed: " ++ e.message)
    IO.sleep (pauseMs c)
    poll c m

def runWith (o : Options) (c : Config) : IO UInt32 := do
  if o.once then
    match Program.once urls c (← offlineWorld c) with
    | .ok text =>
      IO.println text
      return 0
    | .error e => giveUp e
  else poll c (Program.start c)

def run (o : Options) : IO UInt32 := do
  if o.writeDefaultConfig then
    match Config.default.save? with
    | some text =>
      IO.FS.writeFile o.configPath text
      return 0
    | none => fail "the configuration cannot be written" 1
  else
    let file ← (some <$> IO.FS.readFile o.configPath) <|> pure none
    match Program.configure urls o file with
    | .ok c => runWith o c
    | .error e => giveUp e

def usage : String :=
  "Usage: fleet-monitor [--config <file>] [--log-level <level>] [--interval <seconds>] " ++
  "[--api-port <port>] [--geo-token <token>] [--once] [--write-default-config]"

end FleetHealth

open FleetHealth CommandLine in
def main (args : List String) : IO UInt32 := do
  let token ← IO.getEnv "IPINFO_TOKEN"
  match readArguments? args .nothing with
  | none => fail usage 2
  | some .help =>
    IO.println usage
    return 0
  | some .version =>
    IO.println "fleet-monitor 0.1.0"
    return 0
  | some (.run o) => run { o with geoToken := o.geoToken.or token }
