import FleetHealth.Metrics.Ingest

/-! # What taking in a value can do

All outcomes of taking in one value, each with the condition under which it arises. What
is kept by every value, and what a value of one kind changes, follows from this list.
-/
namespace FleetHealth

open Number Clock Chain Text Exposition

def WireValue.fits : WireFormat → WireValue → Bool
  | .integerText, .text _ | .text, .text _ | .float, .number _ | .object, .object _ => true
  | _, _ => false

def MetricKind.counter? (kind : MetricKind) (value : WireValue) : Option Nat :=
  match kind.wireFormat, value with
  | .integerText, .text raw => readCounter? (trim raw.toList)
  | .float, .number raw => raw.toCounter?
  | _, _ => none

theorem MetricKind.counter?_le {kind : MetricKind} {value : WireValue} {n : Nat}
    (h : kind.counter? value = some n) : n ≤ counterMax := by
  unfold counter? at h
  split at h
  · exact readUnsigned?_le h
  · exact Binary64.toCounter?_le h
  · cases h

inductive IngestStep (m : Metrics) (now : Instant) : MetricKind → WireValue → Ingest → Prop
  | misshapen {kind : MetricKind} {value : WireValue} (shape : value.fits kind.wireFormat = false) :
      IngestStep m now kind value
        (m.refuse (.unexpectedType kind kind.wireFormat value.typeName))
  | unreadable {kind : MetricKind} {value : WireValue} (raw : String)
      (format : kind.wireFormat = .integerText ∨ kind.wireFormat = .float)
      (unread : kind.counter? value = none) :
      IngestStep m now kind value (m.refuse (.unreadable kind raw))
  | counter {kind : MetricKind} {value : WireValue} {n : Nat} (read : kind.counter? value = some n)
      (counts : kind ≠ .uptime ∧ kind ≠ .consensusCommitLatency) :
      IngestStep m now kind value ((m.storeInteger kind n).store now)
  | latency {x : Binary64} {n : Nat} (read : x.toCounter? = some n) :
      IngestStep m now .consensusCommitLatency (.number x)
        (({ m with consensusCommitLatencySum := x }).store now)
  | uptime {x : Binary64} {n : Nat} (read : x.toCounter? = some n) :
      IngestStep m now .uptime (.number x) (({ m with uptime := uptimeText n }).store now)
  | version (raw : String) :
      IngestStep m now .version (.text raw) (({ m with version := raw }).store now)
  | commit (raw : String) :
      IngestStep m now .commit (.text raw) (({ m with commit := raw }).store now)
  | noSnapshot {raw : Json} {mismatch : Json.Mismatch}
      (undecoded : SystemState.decode raw = .error mismatch) :
      IngestStep m now .systemState (.object raw) (m.refuse (.undecodable .systemState mismatch))
  | snapshot {raw : Json} {state : SystemState} {epoch : EpochInfo}
      (decoded : SystemState.decode raw = .ok state) (timed : state.epochInfo now = .ok epoch) :
      IngestStep m now .systemState (.object raw)
        (({ m with systemState := some state, epoch := some epoch }).store now)
  | untimed {raw : Json} {state : SystemState} {e : StateError}
      (decoded : SystemState.decode raw = .ok state)
      (untimed : state.epochInfo now = .error (.refused e)) :
      IngestStep m now .systemState (.object raw)
        (({ m with systemState := some state }).refuse (.systemState e))
  | overflow {raw : Json} {state : SystemState}
      (decoded : SystemState.decode raw = .ok state)
      (beyond : state.epochInfo now = .error .beyondCalendar) :
      IngestStep m now .systemState (.object raw) ⟨.aborted, m⟩
  | noYields {raw : Json} {mismatch : Json.Mismatch}
      (undecoded : ValidatorYields.decode raw = .error mismatch) :
      IngestStep m now .validatorsApy (.object raw) (m.refuse (.undecodable .validatorsApy mismatch))
  | yields {raw : Json} {answer : ValidatorYields} {state : SystemState}
      (decoded : ValidatorYields.decode raw = .ok answer) (known : m.systemState = some state) :
      IngestStep m now .validatorsApy (.object raw)
        (({ m with systemState := some (state.setYields answer) }).store now)
  | stateless {raw : Json} {answer : ValidatorYields}
      (decoded : ValidatorYields.decode raw = .ok answer) (unknown : m.systemState = none) :
      IngestStep m now .validatorsApy (.object raw) (m.refuse .missingSystemState)

namespace Metrics

theorem ingestIntegerText_step (m : Metrics) {kind : MetricKind} (raw : String) (now : Instant)
    (format : kind.wireFormat = .integerText) :
    IngestStep m now kind (.text raw) (m.ingestIntegerText kind raw now) := by
  have hcounter : kind.counter? (.text raw) = readCounter? (trim raw.toList) := by
    simp [MetricKind.counter?, format]
  unfold ingestIntegerText
  cases hread : readCounter? (trim raw.toList) with
  | none => exact .unreadable raw (.inl format) (hcounter.trans hread)
  | some n =>
    refine .counter (hcounter.trans hread) ⟨?_, ?_⟩ <;>
      (rintro rfl; simp [MetricKind.wireFormat] at format)

theorem ingestFloat_step (m : Metrics) {kind : MetricKind} (x : Binary64) (now : Instant)
    (format : kind.wireFormat = .float) :
    IngestStep m now kind (.number x) (m.ingestFloat kind x now) := by
  have hcounter : kind.counter? (.number x) = x.toCounter? := by
    simp [MetricKind.counter?, format]
  unfold ingestFloat
  cases hread : x.toCounter? with
  | none => exact .unreadable (String.ofList x.text) (.inr format) (hcounter.trans hread)
  | some n =>
    by_cases hlatency : kind = .consensusCommitLatency
    · subst hlatency
      exact .latency hread
    · by_cases huptime : kind = .uptime
      · subst huptime
        exact .uptime hread
      · have hstore : m.storeFloat kind x n = m.storeInteger kind n := by
          cases kind <;> first | rfl | contradiction
        dsimp only
        rw [hstore]
        exact .counter (hcounter.trans hread) ⟨huptime, hlatency⟩

theorem ingestText_step (m : Metrics) {kind : MetricKind} (raw : String) (now : Instant)
    (format : kind.wireFormat = .text) :
    IngestStep m now kind (.text raw) (m.ingestText kind raw now) := by
  cases kind <;> simp [MetricKind.wireFormat] at format
  · exact .version raw
  · exact .commit raw

theorem ingestSnapshot_step (m : Metrics) (raw : Json) (now : Instant) :
    IngestStep m now .systemState (.object raw) (m.ingestSnapshot raw now) := by
  unfold ingestSnapshot
  cases hdecode : SystemState.decode raw with
  | error mismatch => exact .noSnapshot hdecode
  | ok state =>
    dsimp only
    cases htimed : state.epochInfo now with
    | ok epoch => exact .snapshot hdecode htimed
    | error fault =>
      cases fault with
      | refused e => exact .untimed hdecode htimed
      | beyondCalendar => exact .overflow hdecode htimed

theorem ingestYields_step (m : Metrics) (raw : Json) (now : Instant) :
    IngestStep m now .validatorsApy (.object raw) (m.ingestYields raw now) := by
  unfold ingestYields
  cases hdecode : ValidatorYields.decode raw with
  | error mismatch => exact .noYields hdecode
  | ok answer =>
    dsimp only
    cases hstate : m.systemState with
    | none => exact .stateless hdecode hstate
    | some state => exact .yields hdecode hstate

theorem ingestObject_step (m : Metrics) {kind : MetricKind} (raw : Json) (now : Instant)
    (format : kind.wireFormat = .object) :
    IngestStep m now kind (.object raw) (m.ingestObject kind raw now) := by
  cases kind <;> simp [MetricKind.wireFormat] at format
  · exact m.ingestSnapshot_step raw now
  · exact m.ingestYields_step raw now

theorem misshapen_step (m : Metrics) {kind : MetricKind} {value : WireValue} {format : WireFormat}
    (now : Instant) (hformat : kind.wireFormat = format) (shape : value.fits format = false) :
    IngestStep m now kind value (m.refuse (.unexpectedType kind format value.typeName)) := by
  subst hformat
  exact .misshapen shape

/-- Taking in a value has one of the listed outcomes. -/
theorem ingest_step (m : Metrics) (kind : MetricKind) (value : WireValue) (now : Instant) :
    IngestStep m now kind value (m.ingest kind value now) := by
  unfold ingest
  cases hformat : kind.wireFormat with
  | integerText =>
    cases value with
    | text raw => exact m.ingestIntegerText_step raw now hformat
    | number x => exact m.misshapen_step now hformat rfl
    | object raw => exact m.misshapen_step now hformat rfl
  | float =>
    cases value with
    | text raw => exact m.misshapen_step now hformat rfl
    | number x => exact m.ingestFloat_step x now hformat
    | object raw => exact m.misshapen_step now hformat rfl
  | text =>
    cases value with
    | text raw => exact m.ingestText_step raw now hformat
    | number x => exact m.misshapen_step now hformat rfl
    | object raw => exact m.misshapen_step now hformat rfl
  | object =>
    cases value with
    | text raw => exact m.misshapen_step now hformat rfl
    | number x => exact m.misshapen_step now hformat rfl
    | object raw => exact m.ingestObject_step raw now hformat

end Metrics

end FleetHealth
