import FleetHealth.Fleet.Cycle
import FleetHealth.Json.Printer

/-! # The status API

Five pages to read: is the monitor up, a summary of the fleet, the last report, and the
telemetry in its two forms.
-/
namespace FleetHealth.Fleet

open Chain

def version : String := "0.1.0"

inductive Page where
  | health
  | status
  | report
  | telemetry
  | telemetryJson
deriving DecidableEq, Repr

def Page.ofPath? : String → Option Page
  | "/health" => some .health
  | "/status" => some .status
  | "/report" => some .report
  | "/metrics" => some .telemetry
  | "/metrics/json" => some .telemetryJson
  | _ => none

structure Response where
  status : Nat
  contentType : Option String
  body : String
deriving DecidableEq, Repr

namespace Response

def plain (body : String) : Response := ⟨200, some "text/plain; charset=utf-8", body⟩

def json (status : Nat) (value : Json) : Response :=
  ⟨status, some "application/json", value.canonical.compact⟩

def empty (status : Nat) : Response := ⟨status, none, ""⟩

end Response

def TableReport.summary (r : TableReport) : Json :=
  .object [("hosts", .nat r.hosts.length), ("failed", .nat r.errors.length),
    ("healthy", .nat r.healthy), ("green", .nat (r.count .green)),
    ("yellow", .nat (r.count .yellow)), ("red", .nat (r.count .red))]

def FleetState.summary (s : FleetState) (uptime : Nat) : Json :=
  let tables := (s.lastReport.map (·.tableReports)).getD []
  .object [("status", .text (if s.lastError.isNone then "healthy" else "degraded")),
    ("version", .text version),
    ("uptime_secs", .nat uptime),
    ("active_tables", .texts (s.active.toList.map (·.name))),
    ("last_error", .option .text s.lastError),
    ("last_cycle", .option (fun r => .text r.finishedAt.reportText) s.lastReport),
    ("reference", .option (fun r => .text (toString r.reference)) s.lastReport),
    ("reference_gas_price", .option .nat (s.lastReport.bind (·.referencePrice))),
    ("gas", .option GasStatistics.toJson (s.lastReport.bind (·.gas))),
    ("tables", .object (tables.map fun t => (t.table.name, t.summary)))]

def Monitor.page (m : Monitor) (uptime : Nat) : Page → Response
  | .health => .plain "OK"
  | .status => .json 200 (m.fleet.summary uptime)
  | .report =>
    match m.fleet.lastReport with
    | some report => .json 200 report.toJson
    | none => .json 503 (.object [("error", .text "no cycle completed yet")])
  | .telemetry => .plain (m.telemetry.toPage uptime)
  | .telemetryJson => .json 200 (m.telemetry.toJson uptime)

/-- Answers a request. Pages are only read: any other method than `GET` is refused, but
`HEAD` gets the head of the page, and `OPTIONS` is answered for all paths alike. -/
def Monitor.respond (m : Monitor) (uptime : Nat) (method path : String) : Response :=
  if method = "OPTIONS" then .empty 200
  else match Page.ofPath? path with
    | none => .empty 404
    | some page =>
      if method = "GET" then m.page uptime page
      else if method = "HEAD" then { m.page uptime page with body := "" }
      else .empty 405

end FleetHealth.Fleet
