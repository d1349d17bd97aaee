import FleetHealth.Proofs.Metrics.IngestStep

/-! # Samples for the rate windows

Which values the windows of a host are fed with. A kind that has a window gives one sample
for each value that is read as a counter; all else gives none. Taking in a value feeds
exactly these samples to the windows and leaves them as they are otherwise.
-/
namespace FleetHealth

open Number Clock Chain Text Exposition

abbrev RateSample := RateSeries × Nat

def MetricKind.samples (kind : MetricKind) (value : WireValue) : List RateSample :=
  (kind.rateSeries?.bind fun series => (kind.counter? value).map fun n => (series, n)).toList

def valuesOf (series : RateSeries) (samples : List RateSample) : List Nat :=
  (samples.filter (·.1 = series)).map (·.2)

theorem MetricKind.samples_eq_nil {kind : MetricKind} {value : WireValue}
    (h : kind.counter? value = none) : kind.samples value = [] := by
  simp [samples, h]

theorem MetricKind.counter?_misshapen {kind : MetricKind} {value : WireValue}
    (shape : value.fits kind.wireFormat = false) : kind.counter? value = none := by
  unfold counter?
  split
  · next raw hformat => simp [WireValue.fits, hformat] at shape
  · next x hformat => simp [WireValue.fits, hformat] at shape
  · rfl

namespace RateWindows

def feed (ws : RateWindows) (samples : List RateSample) : RateWindows :=
  samples.foldl (fun ws s => ws.push s.1 s.2) ws

@[simp] theorem feed_nil (ws : RateWindows) : ws.feed [] = ws := rfl

theorem feed_append (ws : RateWindows) (xs ys : List RateSample) :
    ws.feed (xs ++ ys) = (ws.feed xs).feed ys := List.foldl_append

theorem get_new (capacity : RateWindow.Capacity) (series : RateSeries) :
    (new capacity).get series = RateWindow.new capacity := by
  cases series <;> rfl

/-- Every window is fed with the values of its own series only. -/
theorem get_feed (ws : RateWindows) (samples : List RateSample) (series : RateSeries) :
    (ws.feed samples).get series = (valuesOf series samples).foldl RateWindow.push (ws.get series) := by
  induction samples generalizing ws with
  | nil => rfl
  | cons s rest ih =>
    have hrest := ih (ws.push s.1 s.2)
    rw [get_push] at hrest
    by_cases hs : s.1 = series
    · rw [if_pos hs] at hrest
      simpa [feed, valuesOf, hs] using hrest
    · rw [if_neg hs] at hrest
      simpa [feed, valuesOf, hs] using hrest

end RateWindows

namespace Metrics

@[simp] theorem windows_carryForward (m : Metrics) : m.carryForward.windows = m.windows := rfl

theorem windows_storeInteger (m : Metrics) (kind : MetricKind) (n : Nat) :
    (m.storeInteger kind n).windows =
      m.windows.feed (kind.rateSeries?.map fun series => (series, n)).toList := by
  cases kind <;> rfl

/-- Taking in a value feeds its samples to the windows, whatever becomes of it. -/
theorem windows_ingest (m : Metrics) (kind : MetricKind) (value : WireValue) (now : Instant) :
    (m.ingest kind value now).metrics.windows = m.windows.feed (kind.samples value) := by
  have hstep := m.ingest_step kind value now
  generalize m.ingest kind value now = r at hstep ⊢
  cases hstep with
  | misshapen shape =>
    rw [MetricKind.samples_eq_nil (MetricKind.counter?_misshapen shape)]
    rfl
  | unreadable raw format unread =>
    rw [MetricKind.samples_eq_nil unread]
    rfl
  | @counter kind value n read counts =>
    refine (m.windows_storeInteger kind n).trans ?_
    cases hseries : kind.rateSeries? <;> simp [MetricKind.samples, hseries, read]
  | _ => rfl

/-- The version that the uptime brings along feeds no window. -/
theorem windows_ingestScraped (m : Metrics) (kind : MetricKind) (scraped : Scraped) (now : Instant) :
    (m.ingestScraped kind scraped now).metrics.windows =
      m.windows.feed (kind.samples (.number scraped.value)) := by
  have hfirst := m.windows_ingest kind (.number scraped.value) now
  unfold ingestScraped
  dsimp only
  split <;> exact hfirst

/-- A value of a kind with a window is stored exactly when it gives a sample. -/
theorem ingest_stored_iff (m : Metrics) {kind : MetricKind} {series : RateSeries}
    (h : kind.rateSeries? = some series) (value : WireValue) (now : Instant) :
    (m.ingest kind value now).verdict = .stored ↔ kind.samples value ≠ [] := by
  have hsamples : kind.samples value ≠ [] ↔ (kind.counter? value).isSome := by
    cases hcounter : kind.counter? value <;> simp [MetricKind.samples, h, hcounter]
  have hstep := m.ingest_step kind value now
  rw [hsamples]
  generalize m.ingest kind value now = r at hstep ⊢
  cases hstep with
  | misshapen shape => simp [refuse, MetricKind.counter?_misshapen shape]
  | unreadable raw format unread => simp [refuse, unread]
  | counter read counts => simp [store, read]
  | _ => simp [MetricKind.rateSeries?] at h

end Metrics

end FleetHealth
