import FleetHealth.Fleet.Cycle

/-! # What grading reads and writes

Grading writes the percentages of a host, its notes and its verdict. Of the reference it
reads the two counters, and for the verdict the rate of transactions. So references that
have come equally far give the same host up to its verdict.
-/
namespace FleetHealth

namespace Metrics

/-- Equal progress on the chain. -/
structure Ties (a b : Metrics) : Prop where
  checkpoint : a.latestCheckpoint = b.latestCheckpoint
  transactions : a.totalTransactionBlocks = b.totalTransactionBlocks

theorem updateProgress_congr {a b : Metrics} (h : a.Ties b) (m : Metrics) :
    m.updateProgress a = m.updateProgress b := by
  have htx : m.syncRatio a .totalTransactionBlocks = m.syncRatio b .totalTransactionBlocks := by
    simp only [syncRatio, integer, h.transactions]
  have hcheckpoint : m.syncRatio a .latestCheckpoint = m.syncRatio b .latestCheckpoint := by
    simp only [syncRatio, integer, h.checkpoint]
  simp only [updateProgress, htx, hcheckpoint]

/-- Refreshing the progress writes nothing but percentages. -/
theorem updateProgress_frame {β : Type} {read : Metrics → β}
    (htx : ∀ m ratio, read (setTxSync m ratio) = read m)
    (hcheckpoint : ∀ m ratio, read (setCheckpointSync m ratio) = read m) (m reference : Metrics) :
    read (m.updateProgress reference).1 = read m := by
  unfold updateProgress applyRatio
  dsimp only
  split
  · rw [hcheckpoint]
    split
    · exact htx ..
    · rfl
  · split
    · exact htx ..
    · rfl

def withoutProgress (m : Metrics) : Metrics := { m with
  txSyncPercentage := 0
  txSyncRawPercentage := 0
  checkpointSyncPercentage := 0
  checkpointSyncRawPercentage := 0 }

theorem withoutProgress_updateProgress (m reference : Metrics) :
    (m.updateProgress reference).1.withoutProgress = m.withoutProgress :=
  updateProgress_frame (fun _ _ => rfl) (fun _ _ => rfl) m reference

end Metrics

namespace Fleet

def Host.unclassified (h : Host) : Host := { h with status := .grey }

variable {a b : Metrics}

theorem refreshProgress_congr (h : a.Ties b) (table : Table) (host : Host) :
    refreshProgress table a host = refreshProgress table b host := by
  simp only [refreshProgress, Metrics.updateProgress_congr h]

theorem unclassified_grade_congr (h : a.Ties b) (table : Table) (tolerance : Tolerance)
    (host : Host) : (grade table a tolerance host).unclassified =
      (grade table b tolerance host).unclassified := by
  unfold grade Host.unclassified
  rw [refreshProgress_congr h]

theorem classify_congr (h : a.Ties b) (hrate : a.transactionRate = b.transactionRate)
    (host : Metrics) (table : Table) (tolerance : Tolerance) :
    classify host a table tolerance = classify host b table tolerance := by
  have hlagging : isLagging host a tolerance = isLagging host b tolerance := by
    rw [isLagging, isLagging, hrate, h.transactions, h.checkpoint]
  cases table with
  | validator => rfl
  | rpc | node => rw [classify, classify, hlagging]

theorem grade_congr (h : a.Ties b) (hrate : a.transactionRate = b.transactionRate)
    (table : Table) (tolerance : Tolerance) (host : Host) :
    grade table a tolerance host = grade table b tolerance host := by
  unfold grade
  simp only [refreshProgress_congr h, classify_congr h hrate]

theorem grade_validator (a b : Metrics) (tolerance : Tolerance) (host : Host) :
    grade .validator a tolerance host = grade .validator b tolerance host := rfl

theorem grade_address (table : Table) (reference : Metrics) (tolerance : Tolerance) (host : Host) :
    (grade table reference tolerance host).address = host.address := by
  unfold grade refreshProgress
  dsimp only
  split
  · rfl
  · split <;> rfl

theorem grade_frame {β : Type} {read : Metrics → β}
    (htx : ∀ m ratio, read (Metrics.setTxSync m ratio) = read m)
    (hcheckpoint : ∀ m ratio, read (Metrics.setCheckpointSync m ratio) = read m) (table : Table)
    (reference : Metrics) (tolerance : Tolerance) (host : Host) :
    read (grade table reference tolerance host).metrics = read host.metrics := by
  unfold grade refreshProgress
  dsimp only
  split
  · rfl
  · split <;> exact Metrics.updateProgress_frame htx hcheckpoint ..

theorem isEligible_grade (table : Table) (reference : Metrics) (tolerance : Tolerance)
    (host : Host) : isEligible (grade table reference tolerance host) = isEligible host :=
  @grade_frame _ (fun m => m.updated && 0 < m.latestCheckpoint && 0 < m.totalTransactionBlocks)
    (fun _ _ => rfl) (fun _ _ => rfl) table reference tolerance host

theorem ties_grade (table : Table) (reference : Metrics) (tolerance : Tolerance) (host : Host) :
    (grade table reference tolerance host).metrics.Ties host.metrics where
  checkpoint := grade_frame (fun _ _ => rfl) (fun _ _ => rfl) ..
  transactions := grade_frame (fun _ _ => rfl) (fun _ _ => rfl) ..

end Fleet

end FleetHealth
