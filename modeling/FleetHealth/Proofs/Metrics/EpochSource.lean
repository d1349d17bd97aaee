import FleetHealth.Proofs.Metrics.IngestStep

/-! # Whose epoch it is

A snapshot and its timing are stored one after the other. The snapshot that metrics hold is the
last one taken in since they were fresh, with yields that may have come later; the epoch is that
of the last one that could be timed. So the epoch belongs to another snapshot than the one beside
it exactly when the last one has no timing and one before it had.
-/
namespace FleetHealth

open Number Clock Chain Text

/-- A snapshot that was taken in, and the time it was taken in at. -/
structure Capture where
  state : SystemState
  now : Instant
deriving Repr

namespace Capture

def timing? (c : Capture) : Option EpochInfo := (c.state.epochInfo c.now).toOption

def ofValue? (kind : MetricKind) (value : WireValue) (now : Instant) : Option Capture :=
  match kind, value with
  | .systemState, .object raw =>
    match SystemState.decode raw with
    | .ok state =>
      match state.epochInfo now with
      | .error .beyondCalendar => none
      | _ => some ⟨state, now⟩
    | .error _ => none
  | _, _ => none

/-- A snapshot held in metrics that was captured, its yields aside. -/
def IsHeldAs (c : Capture) (s : SystemState) : Prop :=
  ∃ yields, s = { c.state with yields := yields }

theorem IsHeldAs.epochInfo_eq {c : Capture} {s : SystemState} (h : c.IsHeldAs s) (now : Instant) :
    s.epochInfo now = c.state.epochInfo now := by
  obtain ⟨yields, rfl⟩ := h
  rfl

theorem timing?_eq_some_iff {c : Capture} {e : EpochInfo} :
    c.timing? = some e ↔ c.state.epochInfo c.now = .ok e := by
  unfold timing?
  cases c.state.epochInfo c.now <;> simp [Except.toOption]

end Capture

namespace Metrics

inductive Action where
  | ingest (kind : MetricKind) (value : WireValue) (now : Instant)
  | carryForward
deriving Repr

def act (m : Metrics) : Action → Metrics
  | .ingest kind value now => (m.ingest kind value now).metrics
  | .carryForward => m.carryForward

def run (m : Metrics) (actions : List Action) : Metrics := actions.foldl act m

def remember (seen : List Capture) : Action → List Capture
  | .ingest kind value now => (Capture.ofValue? kind value now).toList ++ seen
  | .carryForward => []

def captures (actions : List Action) : List Capture := actions.foldl remember []

/-- Metrics hold the last snapshot, and the epoch of the last one with a timing. -/
structure Remembers (m : Metrics) (seen : List Capture) : Prop where
  snapshot : Option.Rel Capture.IsHeldAs seen.head? m.systemState
  epoch : m.epoch = seen.findSome? Capture.timing?

theorem Remembers.ofWindows (windows : RateWindows) : (ofWindows windows).Remembers [] :=
  ⟨.none, rfl⟩

/-- What neither stores a snapshot nor an epoch leaves what is remembered. -/
theorem Remembers.congr {m m' : Metrics} {seen : List Capture} (h : m.Remembers seen)
    (hstate : m'.systemState = m.systemState) (hepoch : m'.epoch = m.epoch) : m'.Remembers seen :=
  ⟨hstate ▸ h.snapshot, hepoch.trans h.epoch⟩

theorem Remembers.storeInteger {m : Metrics} {seen : List Capture} (h : m.Remembers seen)
    (kind : MetricKind) (n : Nat) (now : Instant) :
    ((m.storeInteger kind n).store now).metrics.Remembers seen := by
  apply h.congr
  · cases kind <;> rfl
  · cases kind <;> rfl

theorem remember_other {kind : MetricKind} (h : kind ≠ .systemState) (seen : List Capture)
    (value : WireValue) (now : Instant) : remember seen (.ingest kind value now) = seen := by
  unfold remember Capture.ofValue?
  cases kind <;> first | rfl | contradiction

theorem remember_misshapen {kind : MetricKind} {value : WireValue}
    (shape : value.fits kind.wireFormat = false) (seen : List Capture) (now : Instant) :
    remember seen (.ingest kind value now) = seen := by
  by_cases hkind : kind = .systemState
  · subst hkind
    cases value with
    | object raw => cases shape
    | text | number => rfl
  · exact remember_other hkind seen value now

section Snapshots

variable {raw : Json} {state : SystemState} {now : Instant}
  (decoded : SystemState.decode raw = .ok state)
include decoded

theorem remember_snapshot (held : state.epochInfo now ≠ .error .beyondCalendar)
    (seen : List Capture) :
    remember seen (.ingest .systemState (.object raw) now) = ⟨state, now⟩ :: seen := by
  simp only [remember, Capture.ofValue?, decoded]
  cases hinfo : state.epochInfo now with
  | ok epoch => rfl
  | error fault =>
    cases fault with
    | refused e => rfl
    | beyondCalendar => exact absurd hinfo held

theorem remember_overflow (beyond : state.epochInfo now = .error .beyondCalendar)
    (seen : List Capture) : remember seen (.ingest .systemState (.object raw) now) = seen := by
  simp only [remember, Capture.ofValue?, decoded, beyond]
  rfl

end Snapshots

/-- One value keeps what is remembered, or is a snapshot and remembered itself. -/
theorem Remembers.ingest {m : Metrics} {seen : List Capture} (h : m.Remembers seen)
    (kind : MetricKind) (value : WireValue) (now : Instant) :
    (m.ingest kind value now).metrics.Remembers (remember seen (.ingest kind value now)) := by
  have hstep := m.ingest_step kind value now
  generalize m.ingest kind value now = r at hstep ⊢
  cases hstep with
  | misshapen shape =>
    rw [remember_misshapen shape]
    exact h
  | unreadable raw format unread =>
    have hkind : kind ≠ .systemState := by
      rintro rfl
      simp [MetricKind.wireFormat] at format
    rw [remember_other hkind]
    exact h
  | counter read counts =>
    have hkind : kind ≠ .systemState := by
      rintro rfl
      simp [MetricKind.counter?, MetricKind.wireFormat] at read
    rw [remember_other hkind]
    exact h.storeInteger kind _ now
  | noSnapshot undecoded =>
    simp only [remember, Capture.ofValue?, undecoded]
    exact h
  | @snapshot raw state epoch decoded timed =>
    rw [remember_snapshot decoded (by simp [timed])]
    refine ⟨.some ⟨state.yields, rfl⟩, ?_⟩
    have htiming : Capture.timing? ⟨state, now⟩ = some epoch :=
      Capture.timing?_eq_some_iff.mpr timed
    rw [List.findSome?_cons, htiming]
    rfl
  | @untimed raw state e decoded untimed =>
    rw [remember_snapshot decoded (by simp [untimed])]
    refine ⟨.some ⟨state.yields, rfl⟩, ?_⟩
    have htiming : Capture.timing? ⟨state, now⟩ = none := by
      simp only [Capture.timing?, untimed, Except.toOption]
    rw [List.findSome?_cons, htiming]
    exact h.epoch
  | overflow decoded beyond =>
    rw [remember_overflow decoded beyond]
    exact h
  | @yields raw answer state decoded known =>
    -- the snapshot held becomes another one, but not another capture
    refine ⟨?_, h.epoch⟩
    have hsnapshot := h.snapshot
    rw [known] at hsnapshot
    generalize hfirst : seen.head? = first at hsnapshot
    cases hsnapshot with
    | some hheld =>
      obtain ⟨yields, rfl⟩ := hheld
      change Option.Rel Capture.IsHeldAs seen.head? _
      rw [hfirst]
      exact .some ⟨_, rfl⟩
  | latency | uptime | version | commit => exact h.congr rfl rfl
  | noYields | stateless => exact h

theorem Remembers.act {m : Metrics} {seen : List Capture} (h : m.Remembers seen) (action : Action) :
    (m.act action).Remembers (remember seen action) := by
  cases action with
  | ingest kind value now => exact h.ingest kind value now
  | carryForward => exact .ofWindows m.windows

theorem Remembers.run {m : Metrics} {seen : List Capture} (h : m.Remembers seen)
    (actions : List Action) : (m.run actions).Remembers (actions.foldl remember seen) := by
  induction actions generalizing m seen with
  | nil => exact h
  | cons action rest ih => exact ih (h.act action)

/-- If there is an epoch, it is that of the snapshot beside it, at the time that was taken in. -/
def EpochBelongs (m : Metrics) (seen : List Capture) : Prop :=
  ∀ e, m.epoch = some e → ∃ s c, m.systemState = some s ∧ seen.head? = some c ∧
    s.epochInfo c.now = .ok e

/-- The epoch is out of place only if it was left by an earlier snapshot. -/
theorem Remembers.epochBelongs_iff {m : Metrics} {seen : List Capture} (h : m.Remembers seen) :
    m.EpochBelongs seen ↔
      ∀ c earlier, seen = c :: earlier → c.timing? = none →
        ∀ c' ∈ earlier, c'.timing? = none := by
  constructor
  · rintro hbelongs c earlier rfl huntimed
    have hepoch : m.epoch = earlier.findSome? Capture.timing? := by
      rw [h.epoch, List.findSome?_cons, huntimed]
    rw [← List.findSome?_eq_none_iff, ← hepoch]
    cases hleft : m.epoch with
    | none => rfl
    | some e =>
      -- an epoch can only be one of the snapshot held, which has none
      obtain ⟨s, last, hs, hlast, htimed⟩ := hbelongs e hleft
      cases hlast
      have hsnapshot := h.snapshot
      rw [hs] at hsnapshot
      cases hsnapshot with
      | some hheld =>
        rw [hheld.epochInfo_eq, ← Capture.timing?_eq_some_iff, huntimed] at htimed
        cases htimed
  · intro hall e he
    cases seen with
    | nil => cases he.symm.trans h.epoch
    | cons c earlier =>
      have hepoch := h.epoch
      rw [he, List.findSome?_cons] at hepoch
      cases htiming : c.timing? with
      | none =>
        have hnone := List.findSome?_eq_none_iff.mpr (hall c earlier rfl htiming)
        simp only [htiming, hnone] at hepoch
        cases hepoch
      | some e' =>
        simp only [htiming] at hepoch
        cases hepoch
        have hsnapshot := h.snapshot
        generalize m.systemState = held at hsnapshot ⊢
        cases hsnapshot with
        | @some _ s hheld =>
          refine ⟨s, c, rfl, rfl, ?_⟩
          rw [hheld.epochInfo_eq, Capture.timing?_eq_some_iff.mp htiming]

/-- After any values, in any order and over any number of cycles, metrics hold the last snapshot
and the epoch of the last one with a timing. The epoch belongs to the snapshot beside it unless
that one has no timing and an earlier one of the same cycle had. -/
theorem epoch_belongs_unless_left_behind (window : RateWindow.Capacity) (actions : List Action) :
    ((new window).run actions).Remembers (captures actions) ∧
    (((new window).run actions).EpochBelongs (captures actions) ↔
      ∀ c earlier, captures actions = c :: earlier → c.timing? = none →
        ∀ c' ∈ earlier, c'.timing? = none) := by
  have h : ((new window).run actions).Remembers (captures actions) :=
    (Remembers.ofWindows (.new window)).run actions
  exact ⟨h, h.epochBelongs_iff⟩

def lastingSnapshot : Action :=
  .ingest .systemState (.object (.object [("epoch", .text "12"),
    ("epochStartTimestampMs", .text "1700000000000"), ("epochDurationMs", .text "86400000")]))
    (.atMs 1700000000000)

def elapsedSnapshot : Action :=
  .ingest .systemState (.object (.object [("epoch", .text "11"),
    ("epochStartTimestampMs", .text "1600000000000"), ("epochDurationMs", .text "86400000")]))
    (.atMs 1700000000000)

theorem lasting_after_elapsed_belongs :
    ((new 5).run [elapsedSnapshot, lastingSnapshot]).EpochBelongs
      (captures [elapsedSnapshot, lastingSnapshot]) ∧
    ((new 5).run [elapsedSnapshot, lastingSnapshot]).epoch.map (·.epoch) = some 12 := by
  have htimed : (captures [elapsedSnapshot, lastingSnapshot]).head?.map (·.timing?.isSome) =
    some true := by decide
  refine ⟨(epoch_belongs_unless_left_behind 5 _).2.mpr ?_, by decide⟩
  intro c earlier hseen huntimed
  rw [hseen] at htimed
  simp [huntimed] at htimed

/-- The earlier epoch is left beside the snapshot that came when it was over. -/
theorem former_epoch_stays_beside_elapsed :
    ((new 5).run [lastingSnapshot, elapsedSnapshot]).epoch.map (·.epoch) = some 12 ∧
    ((new 5).run [lastingSnapshot, elapsedSnapshot]).systemState.map (·.epoch) = some "11" ∧
    ¬((new 5).run [lastingSnapshot, elapsedSnapshot]).EpochBelongs
      (captures [lastingSnapshot, elapsedSnapshot]) := by
  have huntimed : ((new 5).run [lastingSnapshot, elapsedSnapshot]).systemState.bind (fun s =>
      (captures [lastingSnapshot, elapsedSnapshot]).head?.map fun c =>
        (s.epochInfo c.now).toOption.isSome) = some false := by decide
  have hnumber : ((new 5).run [lastingSnapshot, elapsedSnapshot]).epoch.map (·.epoch) =
    some 12 := by decide
  refine ⟨hnumber, by decide, ?_⟩
  intro hbelongs
  obtain ⟨e, he, -⟩ := Option.map_eq_some_iff.mp hnumber
  obtain ⟨s, c, hs, hc, htimed⟩ := hbelongs e he
  simp [hs, hc, htimed, Except.toOption] at huntimed

end Metrics

end FleetHealth
