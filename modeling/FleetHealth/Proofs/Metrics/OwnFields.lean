import FleetHealth.Proofs.Exposition.TokenTexts
import FleetHealth.Proofs.Metrics.IngestStep
import FleetHealth.Proofs.Number.DecimalTexts

/-! # The fields that a kind owns

A value that is taken in sets the fields of its kind and leaves all others as they were. A
counter comes with the window that it feeds and refreshes the backlogs; each other kind has
fields of its own. That metrics were updated is noted with every value.
-/
namespace FleetHealth

open Number Clock Chain Text Exposition

/-! ## Counters -/

/-- The metrics without their counters, their backlogs and their windows. -/
def Metrics.uncounted (m : Metrics) : Metrics :=
  { m with
    totalTransactionBlocks := 0
    totalTransactionCertificates := 0
    totalTransactionEffects := 0
    latestCheckpoint := 0
    highestKnownCheckpoint := 0
    highestSyncedCheckpoint := 0
    lastExecutedCheckpoint := 0
    checkpointSyncBacklog := 0
    checkpointExecBacklog := 0
    currentRound := 0
    highestProcessedRound := 0
    lastCommittedRound := 0
    certificatesCreated := 0
    networkPeers := 0
    knownPeers := 0
    windows := .new 1 }

namespace Metrics

variable {m : Metrics} {kind : MetricKind} {value : WireValue} {now : Instant}

theorem integer_setInteger {old : Nat} (counts : m.integer kind = .ok old) (n : Nat)
    (other : MetricKind) :
    (m.setInteger kind n).integer other = if other = kind then .ok n else m.integer other := by
  cases kind with
  | systemState | validatorsApy | uptime | version | commit | consensusCommitLatency => cases counts
  | _ => cases other <;> rfl

theorem integer_storeInteger {old : Nat} (counts : m.integer kind = .ok old) (n : Nat)
    (other : MetricKind) :
    (m.storeInteger kind n).integer other = if other = kind then .ok n else m.integer other := by
  have hkept : (m.storeInteger kind n).integer other = (m.setInteger kind n).integer other := by
    unfold storeInteger pushRate
    cases kind.rateSeries? <;> cases other <;> rfl
  rw [hkept, integer_setInteger counts]

theorem windows_get_storeInteger (m : Metrics) (kind : MetricKind) (n : Nat) (series : RateSeries) :
    (m.storeInteger kind n).windows.get series =
      if kind.rateSeries? = some series then (m.windows.get series).push n
      else m.windows.get series := by
  have hset : (m.setInteger kind n).windows = m.windows := by cases kind <;> rfl
  unfold storeInteger pushRate
  cases hseries : kind.rateSeries? with
  | none => exact congrArg (RateWindows.get · series) hset
  | some own =>
    change ((m.setInteger kind n).windows.push own n).get series = _
    simp only [hset, RateWindows.get_push, Option.some.injEq]

/-! ## Any kind -/

/-- The metrics without what values of a kind write. -/
def asideFrom (m : Metrics) (kind : MetricKind) : Metrics :=
  let m := { m with updated := false, updatedAt := none }
  match kind with
  | .systemState => { m with systemState := none, epoch := none }
  | .validatorsApy => { m with systemState := m.systemState.map ({ · with yields := .empty }) }
  | .uptime => { m with uptime := "" }
  | .version => { m with version := "" }
  | .commit => { m with commit := "" }
  | .consensusCommitLatency => { m with consensusCommitLatencySum := .zero }
  | _ => m.uncounted

/-- A kind that has no counter shows the value in fields of its own. -/
def Shows (m : Metrics) (now : Instant) : MetricKind → WireValue → Prop
  | .systemState, .object raw => ∃ state epoch, SystemState.decode raw = .ok state ∧
      state.epochInfo now = .ok epoch ∧ m.systemState = some state ∧ m.epoch = some epoch
  | .validatorsApy, .object raw => ∃ answer, ∃ state : SystemState,
      ValidatorYields.decode raw = .ok answer ∧ m.systemState = some (state.setYields answer)
  | .uptime, .number x => ∃ seconds, x.toCounter? = some seconds ∧ m.uptime = uptimeText seconds
  | .version, .text raw => m.version = raw
  | .commit, .text raw => m.commit = raw
  | .consensusCommitLatency, .number x => m.consensusCommitLatencySum = x
  | _, _ => False

/-- The second metrics are the first ones after a value of a kind: they have it in the fields of
its kind and nothing new in any other. -/
structure TookIn (m : Metrics) (now : Instant) (kind : MetricKind) (value : WireValue)
    (m' : Metrics) : Prop where
  counter : ∀ old, m.integer kind = .ok old → ∃ n, kind.counter? value = some n ∧
    m'.integer kind = .ok n ∧
    ∀ series, m'.windows.get series =
      if kind.rateSeries? = some series then (m.windows.get series).push n
      else m.windows.get series
  shows : ∀ e, m.integer kind = .error e → m'.Shows now kind value
  integers : ∀ other, other ≠ kind → m'.integer other = m.integer other
  aside : m'.asideFrom kind = m.asideFrom kind
  updated : m'.updated = true
  updatedAt : m'.updatedAt = some now

theorem TookIn.ofCounter {n : Nat} (read : kind.counter? value = some n)
    (counts : kind ≠ .uptime ∧ kind ≠ .consensusCommitLatency) :
    m.TookIn now kind value ((m.storeInteger kind n).store now).metrics := by
  obtain ⟨huptime, hlatency⟩ := counts
  have hcounter : ∃ old, m.integer kind = .ok old := by
    cases kind with
    | uptime | consensusCommitLatency => contradiction
    | systemState | validatorsApy | version | commit =>
      simp [MetricKind.counter?, MetricKind.wireFormat] at read
    | _ => exact ⟨_, rfl⟩
  obtain ⟨old, hold⟩ := hcounter
  have hinteger : ∀ other, ((m.storeInteger kind n).store now).metrics.integer other =
      if other = kind then .ok n else m.integer other := by
    intro other
    rw [← integer_storeInteger hold]
    cases other <;> rfl
  refine ⟨fun _ _ => ⟨n, read, ?_, m.windows_get_storeInteger kind n⟩, fun e he => ?_,
    fun other hother => ?_, ?_, rfl, rfl⟩
  · rw [hinteger, if_pos rfl]
  · rw [hold] at he
    cases he
  · rw [hinteger, if_neg hother]
  · cases kind with
    | systemState | validatorsApy | uptime | version | commit | consensusCommitLatency => cases hold
    | _ => rfl

/-- A value that is stored is taken in as its kind wants it. -/
theorem tookIn_of_stored (h : (m.ingest kind value now).verdict = .stored) :
    m.TookIn now kind value (m.ingest kind value now).metrics := by
  have hstep := m.ingest_step kind value now
  generalize m.ingest kind value now = r at hstep h ⊢
  cases hstep with
  | counter read counts => exact .ofCounter read counts
  | latency read =>
    exact ⟨nofun, fun _ _ => rfl, fun other _ => by cases other <;> rfl, rfl, rfl, rfl⟩
  | uptime read =>
    exact ⟨nofun, fun _ _ => ⟨_, read, rfl⟩, fun other _ => by cases other <;> rfl, rfl, rfl, rfl⟩
  | version | commit =>
    exact ⟨nofun, fun _ _ => rfl, fun other _ => by cases other <;> rfl, rfl, rfl, rfl⟩
  | snapshot decoded timed =>
    exact ⟨nofun, fun _ _ => ⟨_, _, decoded, timed, rfl, rfl⟩, fun other _ => by cases other <;> rfl,
      rfl, rfl, rfl⟩
  | yields decoded known =>
    refine ⟨nofun, fun _ _ => ⟨_, _, decoded, rfl⟩, fun other _ => by cases other <;> rfl, ?_, rfl,
      rfl⟩
    simp only [asideFrom, store, known, Option.map_some, SystemState.setYields]
  | _ => cases h

/-! ## Integers in texts -/

theorem isBlank_of_mem_decimal {n : Nat} {c : Char} (h : c ∈ decimal n) : isBlank c = false :=
  isBlank_of_isPlain (isPlain_of_isDigit (isDigit_of_mem_decimal h))

theorem readCounter?_decimal {n : Nat} (h : n ≤ counterMax) : readCounter? (decimal n) = some n := by
  obtain ⟨d, ds, hn, hdigits, -⟩ := decimal_eq_cons n
  have hplus : dropPlus (decimal n) = decimal n := by
    rw [hn, dropPlus]
    rintro rest heq
    exact absurd (hdigits '+' ((List.cons.inj heq).1 ▸ List.mem_cons_self)) (by decide)
  rw [readCounter?, readUnsigned?, hplus, readDigits?_decimal, Option.filter_some,
    if_pos (decide_eq_true h)]

/-- The decimal text of a counter stands for it, whatever blanks are around it. -/
theorem ingest_decimal (format : kind.wireFormat = .integerText) {n : Nat} (h : n ≤ counterMax)
    {before after : List Char} (hbefore : ∀ c ∈ before, isBlank c = true)
    (hafter : ∀ c ∈ after, isBlank c = true) (m : Metrics) (now : Instant) :
    kind.counter? (.text (String.ofList (before ++ decimal n ++ after))) = some n ∧
    m.ingest kind (.text (String.ofList (before ++ decimal n ++ after))) now =
      (m.storeInteger kind n).store now := by
  have htrim : trim (before ++ decimal n ++ after) = decimal n :=
    trim_surrounded (decimal_ne_nil n)
      (fun c hc => isBlank_of_mem_decimal (List.mem_of_mem_head? hc))
      (fun c hc => isBlank_of_mem_decimal (List.mem_of_mem_getLast? hc)) hbefore hafter
  have hread : readCounter? (trim (String.ofList (before ++ decimal n ++ after)).toList) = some n := by
    rw [String.toList_ofList, htrim, readCounter?_decimal h]
  refine ⟨?_, ?_⟩
  · simp only [MetricKind.counter?, format, hread]
  · simp only [ingest, format, ingestIntegerText, hread]

/-- A stored value changes the fields of its kind and no others, and every counter can arrive as
its decimal text with any blanks around it. -/
theorem stored_value_writes_own_fields (m : Metrics) (now : Instant) :
    (∀ kind value, (m.ingest kind value now).verdict = .stored →
      m.TookIn now kind value (m.ingest kind value now).metrics) ∧
    ∀ kind, kind.wireFormat = .integerText → ∀ n ≤ counterMax, ∀ before after : List Char,
      (∀ c ∈ before, isBlank c = true) → (∀ c ∈ after, isBlank c = true) →
        kind.counter? (.text (String.ofList (before ++ decimal n ++ after))) = some n ∧
        (m.ingest kind (.text (String.ofList (before ++ decimal n ++ after))) now).verdict = .stored := by
  refine ⟨fun kind value => tookIn_of_stored, fun kind format n hn before after hbefore hafter => ?_⟩
  obtain ⟨hcounter, hingest⟩ := ingest_decimal format hn hbefore hafter m now
  exact ⟨hcounter, by rw [hingest]; rfl⟩

def syncingMetrics : Metrics :=
  (((new 5).storeInteger .highestKnownCheckpoint 50).storeInteger .highestSyncedCheckpoint 30)

/-- Ten more checkpoints are synced, and the largest counter arrives between blanks. -/
theorem synced_value_stays_among_synced :
    ∃ m', (syncingMetrics.ingest .highestSyncedCheckpoint (.number (.ofNat 40)) ⟨0⟩).metrics = m' ∧
      m'.integer .highestSyncedCheckpoint = .ok 40 ∧ m'.integer .highestKnownCheckpoint = .ok 50 ∧
      (m'.windows.get .syncedCheckpoints).samples = [30, 40] ∧
      (m'.windows.get .checkpoints).samples = [] ∧
      MetricKind.latestCheckpoint.counter? (.text "\u00a0 18446744073709551615\n") =
        some 18446744073709551615 := by
  obtain ⟨hstored, htext⟩ := stored_value_writes_own_fields syncingMetrics ⟨0⟩
  have htook := hstored .highestSyncedCheckpoint (.number (.ofNat 40)) (by decide)
  obtain ⟨n, hread, hown, hwindows⟩ := htook.counter 30 rfl
  have hforty : MetricKind.highestSyncedCheckpoint.counter? (.number (.ofNat 40)) = some 40 := by decide
  obtain rfl : n = 40 := Option.some.inj (hread.symm.trans hforty)
  refine ⟨_, rfl, hown, htook.integers .highestKnownCheckpoint (by decide), ?_, ?_, ?_⟩
  · rw [hwindows]
    decide
  · rw [hwindows]
    decide
  · exact (htext .latestCheckpoint rfl 18446744073709551615 (by decide) ['\u00a0', ' '] ['\n']
      (List.all_eq_true.mp (by decide)) (List.all_eq_true.mp (by decide))).1

end Metrics

end FleetHealth
