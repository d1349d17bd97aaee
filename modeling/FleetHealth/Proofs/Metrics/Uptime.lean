import FleetHealth.Proofs.Metrics.Ingested
import FleetHealth.Proofs.Metrics.Samples

/-! # When metrics have an uptime

Only a sample of the uptime that is a number, and not below zero, sets the uptime. Nothing
else that is taken in touches it, so in metrics that began without one it tells whether this
cycle brought such a sample.
-/
namespace FleetHealth

open Number Clock Exposition

namespace Number.Binary64

def value? (x : Binary64) : Option Rat :=
  match x.view with
  | .nan | .infinite _ => none
  | .finite negative m q _ => some ((if negative then -(m : Rat) else m) * 2 ^ q)

/-- Finite and not below zero; that is what a counter can be made of. -/
def CanCount (x : Binary64) : Prop := ∃ value, x.value? = some value ∧ 0 ≤ value

theorem toCounter?_isSome_iff (x : Binary64) : x.toCounter?.isSome = true ↔ x.CanCount := by
  unfold CanCount toCounter? value?
  cases x.view with
  | nan | infinite negative => simp
  | finite negative m q narrow =>
    have hpower : (0 : Rat) < 2 ^ q := Rat.zpow_pos (by decide)
    have hmagnitude : (0 : Rat) ≤ m := Rat.natCast_nonneg
    cases negative with
    | false => simpa using Rat.mul_nonneg hmagnitude (Rat.le_of_lt hpower)
    | true =>
      by_cases hm : m = 0
      · simp [hm]
      · have hpositive : (0 : Rat) < m := by exact_mod_cast Nat.pos_of_ne_zero hm
        have hbelow : -(m : Rat) * 2 ^ q < 0 := by
          rw [Rat.neg_mul]
          exact Rat.neg_lt_neg (Rat.mul_pos hpositive hpower)
        simpa [hm, Rat.not_le] using hbelow

end Number.Binary64

theorem uptimeText_ne_empty (seconds : Nat) : uptimeText seconds ≠ "" := by
  intro h
  unfold uptimeText at h
  dsimp only at h
  rw [String.ofList_eq_empty_iff] at h
  split at h
  · simp at h
  · split at h
    · simp at h
    · split at h <;> simp at h

namespace Metrics

/-- Without an uptime, or updated. -/
def Timely (m : Metrics) : Prop := m.uptime = "" ∨ m.updated = true

theorem timely_ofWindows (windows : RateWindows) : (ofWindows windows).Timely := .inl rfl

theorem Timely.ingest {m : Metrics} (h : m.Timely) (kind : MetricKind) (value : WireValue)
    (now : Instant) : (m.ingest kind value now).metrics.Timely := by
  have hstep := m.ingest_step kind value now
  generalize m.ingest kind value now = r at hstep ⊢
  cases hstep with
  -- what is refused changes nothing, and all else counts as an update
  | misshapen | unreadable | noSnapshot | untimed | overflow | noYields | stateless => exact h
  | _ => exact .inr rfl

theorem Ingested.timely {m m' : Metrics} (h : Ingested m m') (hm : m.Timely) : m'.Timely :=
  h.invariant (fun _ kind value now hm => hm.ingest kind value now) hm

theorem uptime_storeInteger (m : Metrics) (kind : MetricKind) (n : Nat) :
    (m.storeInteger kind n).uptime = m.uptime := by
  cases kind <;> rfl

/-- Only a value of the uptime that is read as a counter sets it. -/
theorem uptime_ingest (m : Metrics) (kind : MetricKind) (value : WireValue) (now : Instant) :
    (m.ingest kind value now).metrics.uptime =
      if kind = .uptime then ((kind.counter? value).map uptimeText).getD m.uptime else m.uptime := by
  have hstep := m.ingest_step kind value now
  generalize m.ingest kind value now = r at hstep ⊢
  cases hstep with
  | misshapen shape => simp [refuse, MetricKind.counter?_misshapen shape]
  | unreadable raw format unread => simp [refuse, unread]
  | counter read counts =>
    rw [if_neg counts.1]
    exact m.uptime_storeInteger ..
  | uptime read => simp [store, MetricKind.counter?, MetricKind.wireFormat, read]
  | _ => rfl

/-- The version that the uptime brings along leaves the uptime as it is. -/
theorem uptime_ingestScraped (m : Metrics) (kind : MetricKind) (scraped : Scraped) (now : Instant) :
    (m.ingestScraped kind scraped now).metrics.uptime =
      if kind = .uptime then (scraped.value.toCounter?.map uptimeText).getD m.uptime
      else m.uptime := by
  have hfirst : (m.ingest kind (.number scraped.value) now).metrics.uptime =
      if kind = .uptime then (scraped.value.toCounter?.map uptimeText).getD m.uptime
      else m.uptime := by
    rw [uptime_ingest]
    by_cases hkind : kind = .uptime
    · subst hkind
      rfl
    · rw [if_neg hkind, if_neg hkind]
  unfold ingestScraped
  dsimp only
  split <;> exact hfirst

end Metrics

end FleetHealth
