import FleetHealth.Proofs.Metrics.IngestStep

/-! # Metrics after any number of values

What holds of metrics after values were taken in one after the other, of any kind, in any
order and whether they were refused or not. Each property is shown for one value and
carried along a whole sequence of them.
-/
namespace FleetHealth

open Number Clock Chain Text Exposition

namespace Metrics

/-- The second metrics come from the first by taking in values. -/
inductive Ingested : Metrics → Metrics → Prop
  | refl (m : Metrics) : Ingested m m
  | ingest {m m' : Metrics} (before : Ingested m m') (kind : MetricKind) (value : WireValue)
      (now : Instant) : Ingested m (m'.ingest kind value now).metrics

namespace Ingested

variable {m m' m'' : Metrics}

theorem trans (h : Ingested m m') (h' : Ingested m' m'') : Ingested m m'' := by
  induction h' with
  | refl => exact h
  | ingest _ kind value now ih => exact ih.ingest kind value now

theorem ingestVersion (h : Ingested m m') (label : String) (now : Instant) :
    Ingested m (m'.ingestVersion label now).metrics := by
  unfold Metrics.ingestVersion
  dsimp only
  split
  · exact (h.ingest _ _ now).ingest _ _ now
  · exact h.ingest _ _ now

/-- A scraped series is one value, or three of them. -/
theorem ingestScraped (h : Ingested m m') (kind : MetricKind) (scraped : Scraped) (now : Instant) :
    Ingested m (m'.ingestScraped kind scraped now).metrics := by
  unfold Metrics.ingestScraped
  dsimp only
  split
  · exact (h.ingest _ _ now).ingestVersion _ now
  · exact h.ingest _ _ now

/-- What every single value keeps, any sequence of values keeps. -/
theorem invariant {P : Metrics → Prop}
    (step : ∀ m kind value now, P m → P (Metrics.ingest m kind value now).metrics)
    (h : Ingested m m') (hm : P m) : P m' := by
  induction h with
  | refl => exact hm
  | ingest _ kind value now ih => exact step _ kind value now ih

end Ingested

/-- The two counters that verdicts are made of are machine words, and neither has been
counted up before a value was taken in. -/
structure Sound (m : Metrics) : Prop where
  transactions_le : m.totalTransactionBlocks ≤ counterMax
  checkpoint_le : m.latestCheckpoint ≤ counterMax
  idle : m.updated = false → m.totalTransactionBlocks = 0

theorem sound_ofWindows (windows : RateWindows) : (ofWindows windows).Sound :=
  ⟨Nat.zero_le _, Nat.zero_le _, fun _ => rfl⟩

theorem Sound.storeInteger {m : Metrics} (h : m.Sound) (kind : MetricKind) {n : Nat}
    (hn : n ≤ counterMax) (now : Instant) : ((m.storeInteger kind n).store now).metrics.Sound := by
  cases kind with
  | totalTransactionBlocks => exact ⟨hn, h.checkpoint_le, by rintro ⟨⟩⟩
  | latestCheckpoint => exact ⟨h.transactions_le, hn, by rintro ⟨⟩⟩
  | _ => exact ⟨h.transactions_le, h.checkpoint_le, by rintro ⟨⟩⟩

theorem Sound.ingest {m : Metrics} (h : m.Sound) (kind : MetricKind) (value : WireValue)
    (now : Instant) : (m.ingest kind value now).metrics.Sound := by
  have hstep := m.ingest_step kind value now
  generalize m.ingest kind value now = r at hstep ⊢
  cases hstep with
  | counter read counts => exact h.storeInteger kind (MetricKind.counter?_le read) now
  | untimed => exact ⟨h.transactions_le, h.checkpoint_le, h.idle⟩
  | misshapen | unreadable | noSnapshot | noYields | overflow | stateless => exact h
  | _ => exact ⟨h.transactions_le, h.checkpoint_le, by rintro ⟨⟩⟩

/-- Counters taken in from fresh metrics are sound. -/
theorem Ingested.sound {m m' : Metrics} (h : Ingested m m') (hm : m.Sound) : m'.Sound :=
  h.invariant (fun _ kind value now hm => hm.ingest kind value now) hm

end Metrics

end FleetHealth
