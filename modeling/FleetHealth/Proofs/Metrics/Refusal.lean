import FleetHealth.Proofs.Chain.EpochTiming
import FleetHealth.Proofs.Metrics.IngestStep

/-! # Refused values

A value that is refused changes nothing, so a host that sends only such values does not count
as updated. The one exception is a snapshot whose timing is refused: it is kept, and all else
stays. Which error refuses a value that arrives in the wrong shape is settled by the shape
alone.
-/
namespace FleetHealth

open Number Clock Chain Text Exposition

/-- A value that decodes as a snapshot of which the timing is refused. -/
structure Untimed (kind : MetricKind) (value : WireValue) (now : Instant) (state : SystemState)
    (fault : StateError) : Prop where
  isState : kind = .systemState
  decoded : ∃ raw, value = .object raw ∧ SystemState.decode raw = .ok state
  refused : state.epochInfo now = .error (.refused fault)

namespace Metrics

variable {m : Metrics} {kind : MetricKind} {value : WireValue} {now : Instant} {e : MetricsError}

theorem ingest_untimed {state : SystemState} {fault : StateError}
    (h : Untimed kind value now state fault) (m : Metrics) : m.ingest kind value now =
      ({ m with systemState := some state }).refuse (.systemState fault) := by
  obtain ⟨rfl, ⟨raw, rfl, hdecoded⟩, hrefused⟩ := h
  have hsnapshot : m.ingest .systemState (.object raw) now = m.ingestSnapshot raw now := rfl
  rw [hsnapshot]
  simp only [ingestSnapshot, hdecoded, hrefused]

/-- What is refused leaves the metrics alone, or is a snapshot that nobody can time. -/
theorem ingest_refused (h : (m.ingest kind value now).verdict = .refused e) :
    (m.ingest kind value now).metrics = m ∨ ∃ state fault, Untimed kind value now state fault := by
  have hstep := m.ingest_step kind value now
  generalize m.ingest kind value now = r at hstep h ⊢
  cases hstep with
  | untimed decoded untimed => exact .inr ⟨_, _, rfl, ⟨_, rfl, decoded⟩, untimed⟩
  | misshapen | unreadable | noSnapshot | noYields | stateless => exact .inl rfl
  | _ => cases h

theorem ingest_misshapen (shape : value.fits kind.wireFormat = false) (m : Metrics)
    (now : Instant) : m.ingest kind value now =
      m.refuse (.unexpectedType kind kind.wireFormat value.typeName) := by
  unfold ingest
  split
  · next hformat => simp [hformat, WireValue.fits] at shape
  · next hformat => simp [hformat, WireValue.fits] at shape
  · next hformat => simp [hformat, WireValue.fits] at shape
  · next hformat => simp [hformat, WireValue.fits] at shape
  · rfl

theorem ingest_unexpectedType_iff (m : Metrics) (kind : MetricKind) (value : WireValue)
    (now : Instant) (metric : MetricKind) (expected : WireFormat) (found : String) :
    (m.ingest kind value now).verdict = .refused (.unexpectedType metric expected found) ↔
      value.fits kind.wireFormat = false ∧ metric = kind ∧ expected = kind.wireFormat ∧
        found = value.typeName := by
  constructor
  · intro h
    have hstep := m.ingest_step kind value now
    generalize m.ingest kind value now = r at hstep h
    cases hstep with
    | misshapen shape =>
      cases h
      exact ⟨shape, rfl, rfl, rfl⟩
    | _ => cases h
  · rintro ⟨shape, rfl, rfl, rfl⟩
    rw [ingest_misshapen shape]
    rfl

theorem ingest_ne_notInteger (m : Metrics) (kind : MetricKind) (value : WireValue) (now : Instant)
    (metric : MetricKind) : (m.ingest kind value now).verdict ≠ .refused (.notInteger metric) := by
  intro h
  have hstep := m.ingest_step kind value now
  generalize m.ingest kind value now = r at hstep h
  cases hstep <;> cases h

/-! ## Scraped series -/

theorem ingestVersion_stored (m : Metrics) (label : String) (now : Instant) :
    (m.ingestVersion label now).verdict = .stored := rfl

/-- The version that an uptime brings along is never refused, so a scraped series is taken in
or refused like the number it is. -/
theorem ingestScraped_cases (m : Metrics) (kind : MetricKind) (scraped : Scraped) (now : Instant) :
    m.ingestScraped kind scraped now = m.ingest kind (.number scraped.value) now ∨
      ((m.ingest kind (.number scraped.value) now).verdict = .stored ∧
        (m.ingestScraped kind scraped now).verdict = .stored) := by
  unfold ingestScraped
  dsimp only
  split
  · next label _ hstored => exact .inr ⟨hstored, ingestVersion_stored _ label now⟩
  · exact .inl rfl

theorem ingestScraped_refused_iff (m : Metrics) (kind : MetricKind) (scraped : Scraped)
    (now : Instant) (e : MetricsError) :
    (m.ingestScraped kind scraped now).verdict = .refused e ↔
      (m.ingest kind (.number scraped.value) now).verdict = .refused e := by
  rcases m.ingestScraped_cases kind scraped now with heq | ⟨hfirst, hall⟩
  · rw [heq]
  · rw [hfirst, hall]

theorem ingestScraped_refused {scraped : Scraped}
    (h : (m.ingestScraped kind scraped now).verdict = .refused e) :
    (m.ingestScraped kind scraped now).metrics = m := by
  rcases m.ingestScraped_cases kind scraped now with heq | ⟨-, hall⟩
  · rw [heq] at h ⊢
    rcases ingest_refused h with hsame | ⟨state, fault, huntimed⟩
    · exact hsame
    · -- a number is no snapshot
      obtain ⟨raw, hraw, -⟩ := huntimed.decoded
      cases hraw
  · rw [hall] at h
    cases h

/-- Refused values and series leave the metrics as they were, but for a snapshot without a
timing, which is kept; a wrong shape is what makes the type unexpected; and no integer is
asked of a kind that has none. -/
theorem refused_leaves_metrics (m : Metrics) (kind : MetricKind) (now : Instant) :
    (∀ value e, (m.ingest kind value now).verdict = .refused e →
      ((∀ state fault, ¬Untimed kind value now state fault) →
        (m.ingest kind value now).metrics = m) ∧
      ∀ state fault, Untimed kind value now state fault → e = .systemState fault ∧
        (m.ingest kind value now).metrics = { m with systemState := some state }) ∧
    (∀ scraped e, (m.ingestScraped kind scraped now).verdict = .refused e →
      (m.ingestScraped kind scraped now).metrics = m) ∧
    (∀ value metric expected found,
      (m.ingest kind value now).verdict = .refused (.unexpectedType metric expected found) ↔
        value.fits kind.wireFormat = false ∧ metric = kind ∧ expected = kind.wireFormat ∧
          found = value.typeName) ∧
    (∀ scraped metric expected found, (m.ingestScraped kind scraped now).verdict =
        .refused (.unexpectedType metric expected found) ↔
      kind.wireFormat ≠ .float ∧ metric = kind ∧ expected = kind.wireFormat ∧ found = "number") ∧
    (∀ value metric, (m.ingest kind value now).verdict ≠ .refused (.notInteger metric)) ∧
    ∀ scraped metric, (m.ingestScraped kind scraped now).verdict ≠ .refused (.notInteger metric) := by
  refine ⟨?_, ?_, ?_, ?_, ?_, ?_⟩
  · intro value e h
    constructor
    · intro htimed
      rcases ingest_refused h with hsame | ⟨state, fault, huntimed⟩
      · exact hsame
      · exact absurd huntimed (htimed state fault)
    · intro state fault huntimed
      rw [ingest_untimed huntimed] at h ⊢
      cases h
      exact ⟨rfl, rfl⟩
  · intro scraped e h
    exact ingestScraped_refused h
  · exact fun value => m.ingest_unexpectedType_iff kind value now
  · intro scraped metric expected found
    have hshape : (WireValue.number scraped.value).fits kind.wireFormat = false ↔
        kind.wireFormat ≠ .float := by
      cases kind.wireFormat <;> simp [WireValue.fits]
    rw [ingestScraped_refused_iff, ingest_unexpectedType_iff, hshape]
    rfl
  · exact fun value => m.ingest_ne_notInteger kind value now
  · intro scraped metric h
    rw [ingestScraped_refused_iff] at h
    exact m.ingest_ne_notInteger kind _ now metric h

def countedMetrics : Metrics :=
  ((new 5).ingest .totalTransactionBlocks (.text "100") (.atMs 1700000000000)).metrics

def elapsedEpoch : Json :=
  .object [("epoch", .text "7"), ("epochStartTimestampMs", .text "1600000000000"),
    ("epochDurationMs", .text "86400000")]

def elapsedState : SystemState where
  epoch := "7"
  protocolVersion := ""
  referenceGasPrice := ""
  totalStake := ""
  storageFundTotalObjectStorageRebates := ""
  storageFundNonRefundableBalance := ""
  stakeSubsidyBalance := ""
  epochStartTimestampMs := "1600000000000"
  epochDurationMs := "86400000"
  activeValidators := []
  atRiskValidators := []
  reportRecords := []
  yields := .empty

theorem elapsedEpoch_untimed : Untimed .systemState (.object elapsedEpoch) (.atMs 1700000000000)
    elapsedState (.epochElapsed (.atMs 1600086400000) (.atMs 1700000000000)) := by
  have htimed : elapsedState.Timed 1600000000000 86400000 := ⟨by decide, by decide⟩
  have hinfo := htimed.epochInfo_eq ⟨by decide, by decide⟩ ⟨by decide, by decide⟩ (.atMs 1700000000000)
  rw [if_pos (by decide)] at hinfo
  exact ⟨rfl, ⟨elapsedEpoch, rfl, rfl⟩, hinfo⟩

/-- The elapsed epoch is kept with nothing else changed; scraped, the kind is refused whole. -/
theorem elapsed_snapshot_is_kept :
    (countedMetrics.ingest .systemState (.object elapsedEpoch) (.atMs 1700000000000)).verdict =
        .refused (.systemState (.epochElapsed (.atMs 1600086400000) (.atMs 1700000000000))) ∧
      (countedMetrics.ingest .systemState (.object elapsedEpoch) (.atMs 1700000000000)).metrics =
        { countedMetrics with systemState := some elapsedState } ∧
      (countedMetrics.ingestScraped .systemState ⟨.zero, .empty⟩ (.atMs 1700000000000)).verdict =
        .refused (.unexpectedType .systemState .object "number") ∧
      (countedMetrics.ingestScraped .systemState ⟨.zero, .empty⟩ (.atMs 1700000000000)).metrics =
        countedMetrics := by
  obtain ⟨hingest, hscraped, -, hshape, -⟩ :=
    refused_leaves_metrics countedMetrics .systemState (.atMs 1700000000000)
  have hverdict : (countedMetrics.ingest .systemState (.object elapsedEpoch) (.atMs 1700000000000)).verdict =
      .refused (.systemState (.epochElapsed (.atMs 1600086400000) (.atMs 1700000000000))) := by
    rw [ingest_untimed elapsedEpoch_untimed]
    rfl
  have hnumber := (hshape ⟨.zero, .empty⟩ .systemState .object "number").mpr ⟨by decide, rfl, rfl, rfl⟩
  exact ⟨hverdict, ((hingest _ _ hverdict).2 _ _ elapsedEpoch_untimed).2, hnumber,
    hscraped _ _ hnumber⟩

end Metrics

end FleetHealth
