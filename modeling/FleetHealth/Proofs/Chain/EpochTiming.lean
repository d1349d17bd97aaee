import FleetHealth.Chain.SystemState
import FleetHealth.Proofs.Results

/-! # Epoch timing

The timing of a snapshot whose timestamps are read and lie within the calendar, and when
there is none because the end of the epoch cannot be held. An epoch that has a timing ends
after the present, and once it has elapsed it stays elapsed. That it ends after it begins is
not looked at: it does so exactly if its length is not negative.
-/
namespace FleetHealth

open Number Clock Chain Text

namespace Clock

def InCalendar (ms : Int) : Prop :=
  Instant.earliest.ns ≤ (Instant.atMs ms).ns ∧ (Instant.atMs ms).ns ≤ Instant.latest.ns

theorem Instant.ofMs?_eq_some {ms : Int} (h : InCalendar ms) : ofMs? ms = some (.atMs ms) := if_pos h

theorem Instant.ofMs?_eq_none {ms : Int} (h : ¬InCalendar ms) : ofMs? ms = none := if_neg h

end Clock

namespace Chain.SystemState

private theorem mapError_ok {ε ε' α : Type} (f : ε → ε') (a : α) :
    (Except.ok a).mapError f = .ok a := rfl

private theorem mapError_error {ε ε' α : Type} (f : ε → ε') (e : ε) :
    (Except.error e : Except ε α).mapError f = .error (f e) := rfl

structure Timed (s : SystemState) (start duration : Int) : Prop where
  start_read : readSigned? (trim s.epochStartTimestampMs.toList) = some start
  duration_read : readSigned? (trim s.epochDurationMs.toList) = some duration

/-- The epoch begins within the calendar and ends outside of it. -/
def EndsBeyondCalendar (s : SystemState) : Prop :=
  ∃ start duration, s.Timed start duration ∧ InCalendar start ∧ ¬InCalendar (start + duration)

variable {s : SystemState} {start duration : Int}

theorem Timed.epochStart_eq (h : s.Timed start duration) : s.epochStart = .ok (start, duration) := by
  simp [epochStart, readField, h.start_read, h.duration_read, bind, Except.bind]

theorem readField_ok {α : Type} {read : List Char → Option α} {field raw : String} {n : α}
    (h : readField read field raw = .ok n) : read (trim raw.toList) = some n := by
  unfold readField at h
  split at h
  · next value hread =>
    cases h
    exact hread
  · cases h

theorem timed_of_epochStart (h : s.epochStart = .ok (start, duration)) : s.Timed start duration := by
  obtain ⟨a, hstart, h⟩ := bind_eq_ok.mp h
  obtain ⟨b, hduration, h⟩ := bind_eq_ok.mp h
  cases h
  exact ⟨readField_ok hstart, readField_ok hduration⟩

theorem readField_error {α : Type} {read : List Char → Option α} {field raw : String}
    {e : StateError} (h : readField read field raw = .error e) : e = .invalidState field raw := by
  unfold readField at h
  split at h
  · cases h
  · exact (Except.error.inj h).symm

theorem epochStart_error {e : StateError} (h : s.epochStart = .error e) :
    ∃ field raw, e = .invalidState field raw := by
  unfold epochStart at h
  cases hstart : readField readSigned? "epochStartTimestampMs" s.epochStartTimestampMs with
  | error e' =>
    rw [hstart] at h
    exact ⟨_, _, (Except.error.inj h).symm.trans (readField_error hstart)⟩
  | ok start =>
    cases hduration : readField readSigned? "epochDurationMs" s.epochDurationMs with
    | error e' =>
      rw [hstart, hduration] at h
      exact ⟨_, _, (Except.error.inj h).symm.trans (readField_error hduration)⟩
    | ok duration =>
      rw [hstart, hduration] at h
      cases h

theorem Timed.epochInfo_eq (h : s.Timed start duration) (hbegin : InCalendar start)
    (hend : InCalendar (start + duration)) (now : Instant) :
    s.epochInfo now =
      if (Instant.atMs (start + duration)).ns < now.ns then
        .error (.refused (.epochElapsed (.atMs (start + duration)) now))
      else (s.epochNumber.mapError .refused).map fun epoch =>
        ⟨epoch, .atMs start, .atMs (start + duration), duration * nsPerMs,
          (Instant.atMs (start + duration)).ns - now.ns⟩ := by
  simp only [epochInfo, h.epochStart_eq, mapError_ok, bind, Except.bind,
    Instant.ofMs?_eq_some hbegin, Instant.ofMs?_eq_some hend]
  split
  · rfl
  · cases s.epochNumber <;> rfl

theorem Timed.epochInfo_of_begin (h : s.Timed start duration) (hbegin : ¬InCalendar start)
    (now : Instant) : s.epochInfo now =
      .error (.refused (.invalidState "epochStartTimestampMs" s.epochStartTimestampMs)) := by
  simp only [epochInfo, h.epochStart_eq, mapError_ok, bind, Except.bind,
    Instant.ofMs?_eq_none hbegin]

theorem Timed.epochInfo_of_end (h : s.Timed start duration) (hbegin : InCalendar start)
    (hend : ¬InCalendar (start + duration)) (now : Instant) :
    s.epochInfo now = .error .beyondCalendar := by
  simp only [epochInfo, h.epochStart_eq, mapError_ok, bind, Except.bind,
    Instant.ofMs?_eq_some hbegin, Instant.ofMs?_eq_none hend]

theorem epochInfo_of_epochStart {e : StateError} (h : s.epochStart = .error e) (now : Instant) :
    s.epochInfo now = .error (.refused e) := by
  simp only [epochInfo, h, mapError_error, bind, Except.bind]

/-- At whatever time it is asked for, a timing is beyond the calendar only by its end. -/
theorem epochInfo_eq_beyondCalendar_iff (s : SystemState) (now : Instant) :
    s.epochInfo now = .error .beyondCalendar ↔ s.EndsBeyondCalendar := by
  constructor
  · intro h
    cases hread : s.epochStart with
    | error e => rw [epochInfo_of_epochStart hread] at h; cases h
    | ok read =>
      have htimed := timed_of_epochStart hread
      refine ⟨read.1, read.2, htimed, ?_⟩
      by_cases hbegin : InCalendar read.1
      · refine ⟨hbegin, fun hend => ?_⟩
        rw [htimed.epochInfo_eq hbegin hend] at h
        split at h
        · cases h
        · cases hnumber : s.epochNumber <;>
            simp [hnumber, mapError_ok, mapError_error, Except.map] at h
      · rw [htimed.epochInfo_of_begin hbegin] at h
        cases h
  · rintro ⟨start, duration, htimed, hbegin, hend⟩
    exact htimed.epochInfo_of_end hbegin hend now

/-! ## What a timing says -/

/-- A snapshot is read and lies within the calendar, or it is refused at all times alike, and
not for having elapsed. -/
theorem timed_or_refused (s : SystemState) :
    (∃ start duration, s.Timed start duration ∧ InCalendar start ∧ InCalendar (start + duration)) ∨
    ∃ fault, (∀ now, s.epochInfo now = .error fault) ∧
      ∀ finish now, fault ≠ .refused (.epochElapsed finish now) := by
  cases hread : s.epochStart with
  | error e =>
    obtain ⟨field, raw, rfl⟩ := epochStart_error hread
    exact .inr ⟨_, epochInfo_of_epochStart hread, fun _ _ h => nomatch h⟩
  | ok read =>
    have htimed := timed_of_epochStart hread
    by_cases hbegin : InCalendar read.1
    · by_cases hend : InCalendar (read.1 + read.2)
      · exact .inl ⟨read.1, read.2, htimed, hbegin, hend⟩
      · exact .inr ⟨_, htimed.epochInfo_of_end hbegin hend, fun _ _ h => nomatch h⟩
    · exact .inr ⟨_, htimed.epochInfo_of_begin hbegin, fun _ _ h => nomatch h⟩

/-- A timing has the timestamps of a snapshot as they are read, and the calendar has both ends. -/
structure ReadAs (s : SystemState) (info : EpochInfo) (start duration : Int) : Prop where
  timed : s.Timed start duration
  begin_held : InCalendar start
  end_held : InCalendar (start + duration)
  start_eq : info.start = .atMs start
  duration_eq : info.duration = duration * nsPerMs

/-- The timing of a snapshot at a time before the end of its epoch. -/
structure HasTiming (s : SystemState) (now : Instant) (info : EpochInfo) : Prop where
  as_read : ∃ start duration, s.ReadAs info start duration
  finish_eq : info.finish.ns = info.start.ns + info.duration
  now_le : now.ns ≤ info.finish.ns
  timeToNext_eq : info.timeToNext = info.finish.ns - now.ns
  epoch_read : s.epochNumber = .ok info.epoch

def Elapsed (s : SystemState) (now : Instant) : Prop :=
  ∃ finish, s.epochInfo now = .error (.refused (.epochElapsed finish now))

/-- The end is at the sum of begin and length. -/
theorem atMs_add (start duration : Int) :
    (Instant.atMs (start + duration)).ns = (Instant.atMs start).ns + duration * nsPerMs :=
  Int.add_mul ..

theorem epochInfo_eq_ok_iff (s : SystemState) (now : Instant) (info : EpochInfo) :
    s.epochInfo now = .ok info ↔ s.HasTiming now info := by
  constructor
  · intro h
    rcases s.timed_or_refused with ⟨start, duration, htimed, hbegin, hend⟩ | ⟨fault, hfault, -⟩
    · rw [htimed.epochInfo_eq hbegin hend] at h
      split at h
      · cases h
      · next hnow =>
        cases hnumber : s.epochNumber with
        | error e =>
          rw [hnumber] at h
          cases h
        | ok epoch =>
          rw [hnumber] at h
          cases h
          exact ⟨⟨start, duration, htimed, hbegin, hend, rfl, rfl⟩, atMs_add .., Int.not_lt.mp hnow,
            rfl, hnumber⟩
    · rw [hfault] at h
      cases h
  · intro h
    obtain ⟨start, duration, hread⟩ := h.as_read
    have hfinish : info.finish = .atMs (start + duration) := by
      rw [Instant.mk.injEq, h.finish_eq, hread.start_eq, hread.duration_eq]
      exact (atMs_add ..).symm
    have hnow : ¬(Instant.atMs (start + duration)).ns < now.ns :=
      hfinish ▸ Int.not_lt.mpr h.now_le
    rw [hread.timed.epochInfo_eq hread.begin_held hread.end_held, if_neg hnow, h.epoch_read,
      ← hread.start_eq, ← hread.duration_eq, ← hfinish, ← h.timeToNext_eq]
    rfl

theorem Timed.elapsed_iff (h : s.Timed start duration) (hbegin : InCalendar start)
    (hend : InCalendar (start + duration)) (now : Instant) :
    s.Elapsed now ↔ (Instant.atMs (start + duration)).ns < now.ns := by
  unfold Elapsed
  rw [h.epochInfo_eq hbegin hend]
  split
  · next hlate => exact ⟨fun _ => hlate, fun _ => ⟨_, rfl⟩⟩
  · next hearly =>
    refine ⟨?_, fun hlate => absurd hlate hearly⟩
    rintro ⟨finish, hfinish⟩
    cases hnumber : s.epochNumber with
    | ok epoch =>
      rw [hnumber] at hfinish
      cases hfinish
    | error e =>
      obtain rfl := readField_error hnumber
      rw [hnumber] at hfinish
      cases hfinish

theorem Elapsed.later {now later : Instant} (h : s.Elapsed now) (hlater : now.ns ≤ later.ns) :
    s.Elapsed later := by
  rcases s.timed_or_refused with ⟨start, duration, htimed, hbegin, hend⟩ | ⟨fault, hfault, hother⟩
  · rw [htimed.elapsed_iff hbegin hend] at h ⊢
    exact Int.lt_of_lt_of_le h hlater
  · obtain ⟨finish, hfinish⟩ := h
    rw [hfault, Except.error.injEq] at hfinish
    exact absurd hfinish (hother finish now)

/-- A snapshot has a timing exactly if all of it is read, lies within the calendar and ends no
earlier than now. The time that is left is then never negative; but the end lies before the
begin if the length is read as a negative one. A snapshot that has elapsed stays elapsed. -/
theorem timing_ordered_iff_lasting (s : SystemState) (now : Instant) :
    (∀ info, s.epochInfo now = .ok info ↔ s.HasTiming now info) ∧
    (∀ info, s.HasTiming now info → 0 ≤ info.timeToNext ∧
      (info.start.ns ≤ info.finish.ns ↔ 0 ≤ info.duration)) ∧
    (∀ start duration, s.Timed start duration → InCalendar start → InCalendar (start + duration) →
      (s.Elapsed now ↔ (Instant.atMs (start + duration)).ns < now.ns)) ∧
    (s.Elapsed now → ∀ later : Instant, now.ns ≤ later.ns → s.Elapsed later) := by
  refine ⟨s.epochInfo_eq_ok_iff now, ?_, ?_, fun h later => h.later⟩
  · intro info h
    have hfinish := h.finish_eq
    have hnow := h.now_le
    have hleft := h.timeToNext_eq
    constructor <;> omega
  · intro start duration htimed hbegin hend
    exact htimed.elapsed_iff hbegin hend now

def blank : SystemState where
  epoch := ""
  protocolVersion := ""
  referenceGasPrice := ""
  totalStake := ""
  storageFundTotalObjectStorageRebates := ""
  storageFundNonRefundableBalance := ""
  stakeSubsidyBalance := ""
  epochStartTimestampMs := ""
  epochDurationMs := ""
  activeValidators := []
  atRiskValidators := []
  reportRecords := []
  yields := .empty

def comingState : SystemState :=
  { blank with
    epoch := "42"
    epochStartTimestampMs := "4102444800000"
    epochDurationMs := "86400000" }

def comingInfo : EpochInfo where
  epoch := 42
  start := .atMs 4102444800000
  finish := .atMs 4102531200000
  duration := 86400 * nsPerSecond
  timeToNext := 2402531200 * nsPerSecond

/-- It has not elapsed at its end, but has a nanosecond later. -/
theorem comingState_is_timed : comingState.HasTiming (.atMs 1700000000000) comingInfo ∧
    comingState.epochInfo (.atMs 1700000000000) = .ok comingInfo ∧ 0 ≤ comingInfo.timeToNext ∧
    comingInfo.start.ns ≤ comingInfo.finish.ns ∧ ¬comingState.Elapsed ⟨4102531200000000000⟩ ∧
    comingState.Elapsed ⟨4102531200000000001⟩ ∧ comingState.Elapsed (.atMs 4102617600000) := by
  have htimed : comingState.Timed 4102444800000 86400000 := ⟨by decide, by decide⟩
  have hbegin : InCalendar 4102444800000 := ⟨by decide, by decide⟩
  have hend : InCalendar (4102444800000 + 86400000) := ⟨by decide, by decide⟩
  have htiming : comingState.HasTiming (.atMs 1700000000000) comingInfo :=
    ⟨⟨_, _, htimed, hbegin, hend, by decide, by decide⟩, by decide, by decide, by decide, by decide⟩
  obtain ⟨hinfo, hordered, -, -⟩ := timing_ordered_iff_lasting comingState (.atMs 1700000000000)
  obtain ⟨-, -, hlast, -⟩ := timing_ordered_iff_lasting comingState ⟨4102531200000000000⟩
  obtain ⟨-, -, hover, hstays⟩ := timing_ordered_iff_lasting comingState ⟨4102531200000000001⟩
  have helapsed : comingState.Elapsed ⟨4102531200000000001⟩ :=
    (hover _ _ htimed hbegin hend).mpr (by decide)
  obtain ⟨hleft, hlasting⟩ := hordered _ htiming
  refine ⟨htiming, (hinfo _).mpr htiming, hleft, hlasting.mpr (by decide), ?_, helapsed,
    hstays helapsed _ (by decide)⟩
  rw [hlast _ _ htimed hbegin hend]
  decide

def backwardState : SystemState :=
  { blank with
    epoch := "412"
    epochStartTimestampMs := "1700000000000"
    epochDurationMs := "-1500" }

/-- It is timed all the same, and ends before it begins. -/
theorem negative_length_ends_before_begin : ∃ info,
    backwardState.epochInfo (.atMs 1699999998000) = .ok info ∧ info.finish.ns < info.start.ns ∧
      info.duration = -1500 * nsPerMs := by
  have htimed : backwardState.Timed 1700000000000 (-1500) := ⟨by decide, by decide⟩
  refine ⟨⟨412, .atMs 1700000000000, .atMs 1699999998500, -1500 * nsPerMs, 500 * nsPerMs⟩, ?_,
    by decide, rfl⟩
  rw [epochInfo_eq_ok_iff]
  exact ⟨⟨_, _, htimed, ⟨by decide, by decide⟩, ⟨by decide, by decide⟩, rfl, rfl⟩, by decide,
    by decide, by decide, by decide⟩

end Chain.SystemState

end FleetHealth
