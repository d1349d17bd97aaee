import FleetHealth.Metrics.Metrics
import FleetHealth.Metrics.Uptime

/-! # Taking in values

A value is checked against the form its kind arrives in, converted once and stored.
A value that is refused leaves the metrics as they were, with one exception: a snapshot
whose epoch timing is refused is kept, since gas statistics need no timing.
-/
namespace FleetHealth

open Number Clock Chain Text Exposition

/-- How taking in a value ends. The last case is a snapshot whose epoch ends beyond the
calendar: it takes the host's task down. -/
inductive Verdict where
  | stored
  | refused (e : MetricsError)
  | aborted
deriving DecidableEq, Repr

structure Ingest where
  verdict : Verdict
  metrics : Metrics
deriving Repr

namespace Metrics

def refuse (m : Metrics) (e : MetricsError) : Ingest := ⟨.refused e, m⟩

/-- Marks the metrics as updated. -/
def store (m : Metrics) (now : Instant) : Ingest :=
  ⟨.stored, { m with updated := true, updatedAt := some now }⟩

def ingestIntegerText (m : Metrics) (kind : MetricKind) (raw : String) (now : Instant) : Ingest :=
  match readCounter? (trim raw.toList) with
  | some value => (m.storeInteger kind value).store now
  | none => m.refuse (.unreadable kind raw)

def storeFloat (m : Metrics) (kind : MetricKind) (raw : Binary64) (value : Nat) : Metrics :=
  match kind with
  | .consensusCommitLatency => { m with consensusCommitLatencySum := raw }
  | .uptime => { m with uptime := uptimeText value }
  | kind => m.storeInteger kind value

/-- Only numbers that are finite and not negative are taken; their whole part counts. -/
def ingestFloat (m : Metrics) (kind : MetricKind) (raw : Binary64) (now : Instant) : Ingest :=
  match raw.toCounter? with
  | some value => (m.storeFloat kind raw value).store now
  | none => m.refuse (.unreadable kind (String.ofList raw.text))

def ingestText (m : Metrics) (kind : MetricKind) (raw : String) (now : Instant) : Ingest :=
  match kind with
  | .version => ({ m with version := raw }).store now
  | .commit => ({ m with commit := raw }).store now
  | kind => m.refuse (.notInteger kind)

def ingestSnapshot (m : Metrics) (raw : Json) (now : Instant) : Ingest :=
  match SystemState.decode raw with
  | .error mismatch => m.refuse (.undecodable .systemState mismatch)
  | .ok state =>
    let kept := { m with systemState := some state }
    match state.epochInfo now with
    | .ok epoch => ({ kept with epoch := some epoch }).store now
    | .error (.refused e) => kept.refuse (.systemState e)
    | .error .beyondCalendar => ⟨.aborted, m⟩

def ingestYields (m : Metrics) (raw : Json) (now : Instant) : Ingest :=
  match ValidatorYields.decode raw with
  | .error mismatch => m.refuse (.undecodable .validatorsApy mismatch)
  | .ok answer =>
    match m.systemState with
    | some state => ({ m with systemState := some (state.setYields answer) }).store now
    | none => m.refuse .missingSystemState

def ingestObject (m : Metrics) (kind : MetricKind) (raw : Json) (now : Instant) : Ingest :=
  match kind with
  | .systemState => m.ingestSnapshot raw now
  | .validatorsApy => m.ingestYields raw now
  | kind => m.refuse (.notInteger kind)

def ingest (m : Metrics) (kind : MetricKind) (value : WireValue) (now : Instant) : Ingest :=
  match kind.wireFormat, value with
  | .integerText, .text raw => m.ingestIntegerText kind raw now
  | .float, .number raw => m.ingestFloat kind raw now
  | .text, .text raw => m.ingestText kind raw now
  | .object, .object raw => m.ingestObject kind raw now
  | expected, found => m.refuse (.unexpectedType kind expected found.typeName)

/-- The label that holds version and commit on the uptime series. -/
def versionLabel : String := "version"

def ingestVersion (m : Metrics) (label : String) (now : Instant) : Ingest :=
  let (version, commit) := splitVersion label
  let first := m.ingest .version (.text version) now
  match first.verdict with
  | .stored => first.metrics.ingest .commit (.text commit) now
  | _ => first

/-- Takes in a scraped series. The one of the uptime brings version and commit along. -/
def ingestScraped (m : Metrics) (kind : MetricKind) (scraped : Scraped) (now : Instant) :
    Ingest :=
  let first := m.ingest kind (.number scraped.value) now
  match first.verdict, kind, scraped.labels.get? versionLabel with
  | .stored, .uptime, some label => first.metrics.ingestVersion label now
  | _, _, _ => first

end Metrics

end FleetHealth
