import FleetHealth.Metrics.Health
import FleetHealth.Metrics.Ingest
import FleetHealth.Metrics.Progress

/-! # Metrics without their windows

The windows only record: whether a value is taken in, and what it sets, does not depend on
them, and neither does progress. Of verdicts only those on validators are independent of
the windows.
-/
namespace FleetHealth

open Chain Clock Exposition Number

def Metrics.windowless (m : Metrics) : Metrics := { m with windows := .new 1 }

def Ingest.windowless (r : Ingest) : Ingest := ⟨r.verdict, r.metrics.windowless⟩

namespace Metrics

variable {m m' : Metrics}

theorem windowless_carryForward (m m' : Metrics) :
    m.carryForward.windowless = m'.carryForward.windowless := rfl

theorem windowless_storeInteger (m : Metrics) (kind : MetricKind) (value : Nat) :
    (m.windowless.storeInteger kind value).windowless = (m.storeInteger kind value).windowless := by
  cases kind <;> rfl

theorem windowless_ingestIntegerText (m : Metrics) (kind : MetricKind) (raw : String)
    (now : Instant) : (m.windowless.ingestIntegerText kind raw now).windowless =
      (m.ingestIntegerText kind raw now).windowless := by
  unfold ingestIntegerText
  split
  · next value hvalue =>
    have hstored := windowless_storeInteger m kind value
    exact congrArg (fun m : Metrics => m.store now) hstored
  · rfl

theorem windowless_ingestFloat (m : Metrics) (kind : MetricKind) (raw : Binary64) (now : Instant) :
    (m.windowless.ingestFloat kind raw now).windowless =
      (m.ingestFloat kind raw now).windowless := by
  unfold ingestFloat
  split
  · next value hvalue =>
    have hstored : (m.windowless.storeFloat kind raw value).windowless =
        (m.storeFloat kind raw value).windowless := by
      cases kind <;> rfl
    exact congrArg (fun m : Metrics => m.store now) hstored
  · rfl

theorem windowless_ingestText (m : Metrics) (kind : MetricKind) (raw : String) (now : Instant) :
    (m.windowless.ingestText kind raw now).windowless =
      (m.ingestText kind raw now).windowless := by
  cases kind <;> rfl

theorem windowless_ingestObject (m : Metrics) (kind : MetricKind) (raw : Json) (now : Instant) :
    (m.windowless.ingestObject kind raw now).windowless =
      (m.ingestObject kind raw now).windowless := by
  have hsnapshot : (m.windowless.ingestSnapshot raw now).windowless =
      (m.ingestSnapshot raw now).windowless := by
    unfold ingestSnapshot
    split
    · rfl
    · next state hstate =>
      dsimp only
      split <;> rfl
  have hyields : (m.windowless.ingestYields raw now).windowless =
      (m.ingestYields raw now).windowless := by
    unfold ingestYields
    split
    · rfl
    · next answer hanswer =>
      have hstate : m.windowless.systemState = m.systemState := rfl
      rw [hstate]
      split <;> rfl
  unfold ingestObject
  split
  · exact hsnapshot
  · exact hyields
  · rfl

theorem windowless_ingest (m : Metrics) (kind : MetricKind) (value : WireValue) (now : Instant) :
    (m.windowless.ingest kind value now).windowless = (m.ingest kind value now).windowless := by
  unfold ingest
  split
  · exact windowless_ingestIntegerText ..
  · exact windowless_ingestFloat ..
  · exact windowless_ingestText ..
  · exact windowless_ingestObject ..
  · rfl

/-- Metrics that differ in their windows take in a value alike. -/
theorem ingest_congr (h : m.windowless = m'.windowless) (kind : MetricKind) (value : WireValue)
    (now : Instant) :
    (m.ingest kind value now).windowless = (m'.ingest kind value now).windowless := by
  rw [← windowless_ingest m, h, windowless_ingest]

theorem ingestVersion_congr (h : m.windowless = m'.windowless) (label : String) (now : Instant) :
    (m.ingestVersion label now).windowless = (m'.ingestVersion label now).windowless := by
  have hfirst := ingest_congr h .version (.text (splitVersion label).1) now
  have hverdict := congrArg Ingest.verdict hfirst
  have hmetrics := congrArg Ingest.metrics hfirst
  dsimp only [Ingest.windowless] at hverdict hmetrics
  unfold ingestVersion
  dsimp only
  rw [hverdict]
  split
  · exact ingest_congr hmetrics ..
  · exact hfirst

theorem ingestScraped_congr (h : m.windowless = m'.windowless) (kind : MetricKind)
    (series : Scraped) (now : Instant) :
    (m.ingestScraped kind series now).windowless = (m'.ingestScraped kind series now).windowless := by
  have hfirst := ingest_congr h kind (.number series.value) now
  have hverdict := congrArg Ingest.verdict hfirst
  have hmetrics := congrArg Ingest.metrics hfirst
  dsimp only [Ingest.windowless] at hverdict hmetrics
  unfold ingestScraped
  dsimp only
  rw [hverdict]
  split
  · exact ingestVersion_congr hmetrics ..
  · exact hfirst

end Metrics

end FleetHealth
