import FleetHealth.Metrics.Progress
import FleetHealth.Proofs.Metrics.Ingested
import FleetHealth.Proofs.Metrics.Samples
import FleetHealth.Proofs.Results

/-! # Derived figures

Some fields of the metrics follow from others, but are stored beside them: the backlogs, the
capped percentages, the mark that a value has arrived. Whatever is done to metrics, and in
which order, keeps them in step, and keeps the windows at the capacity they were made with.
-/
namespace FleetHealth

open Number Clock Exposition

/-- A window of a given capacity that has room for the next value, and no rate before it has
been full once. -/
structure RateWindow.Open (capacity : Nat) (w : RateWindow) : Prop where
  capacity : w.capacity = max capacity 1
  room : w.samples.length < w.capacity
  warm : w.rate ≠ 0 → w.warmedUp = true

namespace RateWindow.Open

variable {capacity : Nat} {w : RateWindow}

theorem new (capacity : Capacity) : (RateWindow.new capacity).Open capacity where
  capacity := rfl
  room := Nat.le_max_right capacity 1
  warm := fun h => absurd rfl h

theorem push (h : w.Open capacity) (value : Nat) : (w.push value).Open capacity := by
  unfold RateWindow.push
  dsimp only
  split
  · -- the window is full, so the oldest value leaves it
    constructor
    · exact h.capacity
    · have hroom := h.room
      simp only [List.length_tail, List.length_append, List.length_singleton]
      omega
    · exact fun _ => rfl
  · next hroom => exact ⟨h.capacity, Nat.lt_of_not_le hroom, h.warm⟩

theorem pushAll (h : w.Open capacity) (values : List Nat) :
    (values.foldl RateWindow.push w).Open capacity := by
  induction values generalizing w with
  | nil => exact h
  | cons value rest ih => exact ih (h.push value)

end RateWindow.Open

def RateWindows.Open (capacity : Nat) (ws : RateWindows) : Prop :=
  ∀ series, (ws.get series).Open capacity

theorem RateWindows.Open.new (capacity : RateWindow.Capacity) : (RateWindows.new capacity).Open capacity := by
  intro series
  rw [get_new]
  exact .new capacity

theorem RateWindows.Open.feed {capacity : Nat} {ws : RateWindows} (h : ws.Open capacity)
    (samples : List RateSample) : (ws.feed samples).Open capacity := by
  intro series
  rw [get_feed]
  exact (h series).pushAll _

namespace Metrics

/-- The fields that follow from others do so, and the windows are open. -/
structure Consistent (window : Nat) (m : Metrics) : Prop where
  updated_iff : m.updated = true ↔ m.updatedAt.isSome = true
  syncBacklog : m.checkpointSyncBacklog = m.highestKnownCheckpoint - m.highestSyncedCheckpoint
  execBacklog : m.checkpointExecBacklog = m.highestSyncedCheckpoint - m.lastExecutedCheckpoint
  timed : m.epoch.isSome = true → m.systemState.isSome = true
  txSync : m.txSyncPercentage = min 100 m.txSyncRawPercentage
  checkpointSync : m.checkpointSyncPercentage = min 100 m.checkpointSyncRawPercentage
  windows : m.windows.Open window

namespace Consistent

variable {window : Nat} {m : Metrics}

theorem ofWindows {windows : RateWindows} (h : windows.Open window) :
    (Metrics.ofWindows windows).Consistent window where
  updated_iff := by simp [Metrics.ofWindows]
  syncBacklog := rfl
  execBacklog := rfl
  timed := fun h => nomatch h
  txSync := rfl
  checkpointSync := rfl
  windows := h

theorem store (h : m.Consistent window) (now : Instant) :
    (m.store now).metrics.Consistent window :=
  { h with updated_iff := by simp [Metrics.store] }

theorem storeInteger (h : m.Consistent window) (kind : MetricKind) (n : Nat) :
    (m.storeInteger kind n).Consistent window where
  updated_iff := by cases kind <;> exact h.updated_iff
  syncBacklog := by cases kind <;> rfl
  execBacklog := by cases kind <;> rfl
  timed := by cases kind <;> exact h.timed
  txSync := by cases kind <;> exact h.txSync
  checkpointSync := by cases kind <;> exact h.checkpointSync
  windows := by
    rw [windows_storeInteger]
    exact h.windows.feed _

theorem ingest (h : m.Consistent window) (kind : MetricKind) (value : WireValue) (now : Instant) :
    (m.ingest kind value now).metrics.Consistent window := by
  have hstep := m.ingest_step kind value now
  generalize m.ingest kind value now = r at hstep ⊢
  cases hstep with
  | counter read counts => exact (h.storeInteger kind _).store now
  | latency | uptime | version | commit => exact { h with updated_iff := by simp [Metrics.store] }
  | snapshot | yields =>
    exact { h with updated_iff := by simp [Metrics.store], timed := fun _ => rfl }
  | untimed => exact { h with timed := fun _ => rfl }
  | misshapen | unreadable | noSnapshot | noYields | overflow | stateless => exact h

theorem ingestScraped (h : m.Consistent window) (kind : MetricKind) (scraped : Scraped)
    (now : Instant) : (m.ingestScraped kind scraped now).metrics.Consistent window :=
  ((Ingested.refl m).ingestScraped kind scraped now).invariant
    (fun _ kind value now hm => hm.ingest kind value now) h

end Consistent

/-! ## Progress -/

theorem syncRatio_capped {m reference : Metrics} {kind : MetricKind} {ratio : Nat × Nat}
    (h : m.syncRatio reference kind = .ok ratio) : ratio.1 = min 100 ratio.2 := by
  unfold syncRatio at h
  obtain ⟨own, -, h⟩ := bind_eq_ok.mp h
  obtain ⟨other, -, h⟩ := bind_eq_ok.mp h
  obtain ⟨progress, hprogress, h⟩ := bind_eq_ok.mp h
  obtain ⟨raw, hraw, h⟩ := bind_eq_ok.mp h
  cases h
  rw [progressPercentage, hraw] at hprogress
  cases hprogress
  exact Nat.min_comm raw 100

theorem Consistent.applyRatio {window : Nat} {m : Metrics} {ratio : Except MetricsError (Nat × Nat)}
    {update : Metrics → Nat × Nat → Metrics} (h : m.Consistent window)
    (hupdate : ∀ r, ratio = .ok r → (update m r).Consistent window) :
    (Metrics.applyRatio update m ratio).Consistent window := by
  cases ratio with
  | ok r => exact hupdate r rfl
  | error e => exact h -- the percentages of before stay

theorem Consistent.updateProgress {window : Nat} {m : Metrics} (h : m.Consistent window)
    (reference : Metrics) : (m.updateProgress reference).1.Consistent window := by
  have htx : (Metrics.applyRatio setTxSync m
      (m.syncRatio reference .totalTransactionBlocks)).Consistent window :=
    h.applyRatio fun _ hratio => { h with txSync := syncRatio_capped hratio }
  exact htx.applyRatio fun _ hratio => { htx with checkpointSync := syncRatio_capped hratio }

/-! ## All that can be done to metrics -/

/-- Metrics that were new once and have since been worked on in any way and order. -/
inductive Reachable (window : RateWindow.Capacity) : Metrics → Prop
  | new : Reachable window (.new window)
  | ingest {m : Metrics} (before : Reachable window m) (kind : MetricKind) (value : WireValue)
      (now : Instant) : Reachable window (m.ingest kind value now).metrics
  | ingestScraped {m : Metrics} (before : Reachable window m) (kind : MetricKind)
      (scraped : Scraped) (now : Instant) :
      Reachable window (m.ingestScraped kind scraped now).metrics
  | updateProgress {m : Metrics} (before : Reachable window m) (reference : Metrics) :
      Reachable window (m.updateProgress reference).1
  | carryForward {m : Metrics} (before : Reachable window m) : Reachable window m.carryForward

/-- Metrics are consistent whatever has been done to them. -/
theorem consistent_of_reachable {window : RateWindow.Capacity} {m : Metrics} (h : Reachable window m) :
    m.Consistent window := by
  induction h with
  | new => exact .ofWindows (.new window)
  | ingest _ kind value now ih => exact ih.ingest kind value now
  | ingestScraped _ kind scraped now ih => exact ih.ingestScraped kind scraped now
  | updateProgress _ reference ih => exact ih.updateProgress reference
  | carryForward _ ih => exact .ofWindows ih.windows

/-- Metrics of a second cycle, ahead of the reference and behind in syncing; the last value is
refused. -/
def aheadMetrics : Metrics :=
  let now : Instant := .atMs 1700000000000
  let reference := ((Metrics.new 5).ingest .totalTransactionBlocks (.text "100") now).metrics
  let earlier := ((Metrics.new 2).ingest .totalTransactionBlocks (.text "90") now).metrics
  let counted := (earlier.carryForward.ingest .totalTransactionBlocks (.text "150") now).metrics
  let known := (counted.ingestScraped .highestKnownCheckpoint ⟨.ofNat 120, .empty⟩ now).metrics
  let synced := (known.ingestScraped .highestSyncedCheckpoint ⟨.ofNat 100, .empty⟩ now).metrics
  ((synced.updateProgress reference).1.ingest .latestCheckpoint (.object .null) now).metrics

theorem aheadMetrics_consistent : Reachable 2 aheadMetrics ∧ aheadMetrics.Consistent 2 ∧
    aheadMetrics.checkpointSyncBacklog = 20 ∧ aheadMetrics.txSyncRawPercentage = 150 ∧
    aheadMetrics.txSyncPercentage = 100 ∧ aheadMetrics.transactionRate = 60 := by
  have h : Reachable 2 aheadMetrics :=
    (((((Reachable.new.ingest _ _ _).carryForward.ingest _ _ _).ingestScraped _ _ _).ingestScraped
      _ _ _).updateProgress _).ingest _ _ _
  refine ⟨h, consistent_of_reachable h, ?_, ?_, ?_, ?_⟩ <;> decide

end Metrics

end FleetHealth
