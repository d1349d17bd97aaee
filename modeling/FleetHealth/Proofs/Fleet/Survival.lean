import FleetHealth.Proofs.Chain.EpochTiming
import FleetHealth.Proofs.Fleet.Task

/-! # Tasks that survive

When every gateway call returns, only one answer takes the task of a host down: a snapshot
whose epoch begins within the calendar and ends outside of it. No other value of any kind
does, whether it is called for or scraped.
-/
namespace FleetHealth

open Clock Chain Exposition Gateway Net

def WireValue.EndsBeyondCalendar (value : WireValue) : Prop :=
  ∃ raw state, value = .object raw ∧ SystemState.decode raw = .ok state ∧ state.EndsBeyondCalendar

namespace Metrics

theorem ingest_aborted_iff (m : Metrics) (kind : MetricKind) (value : WireValue) (now : Instant) :
    (m.ingest kind value now).verdict = .aborted ↔
      kind = .systemState ∧ value.EndsBeyondCalendar := by
  have hstep := m.ingest_step kind value now
  generalize m.ingest kind value now = r at hstep ⊢
  -- A snapshot that was taken in or refused has another timing.
  have hdecoded : ∀ {raw state}, SystemState.decode raw = .ok state →
      ((WireValue.object raw).EndsBeyondCalendar ↔ state.epochInfo now = .error .beyondCalendar) := by
    intro raw state hdecode
    rw [state.epochInfo_eq_beyondCalendar_iff]
    constructor
    · rintro ⟨raw', state', hraw, hdecode', hends⟩
      cases hraw
      rw [hdecode, Except.ok.injEq] at hdecode'
      rwa [hdecode']
    · intro hends
      exact ⟨raw, state, rfl, hdecode, hends⟩
  cases hstep with
  | overflow decoded beyond => simp [hdecoded decoded, beyond]
  | snapshot decoded timed => simp [hdecoded decoded, timed, store]
  | untimed decoded untimed => simp [hdecoded decoded, untimed, refuse]
  | noSnapshot undecoded =>
    refine ⟨by rintro ⟨⟩, ?_⟩
    rintro ⟨-, raw, state, hraw, hdecode, -⟩
    cases hraw
    rw [undecoded] at hdecode
    cases hdecode
  | misshapen shape =>
    refine ⟨by rintro ⟨⟩, ?_⟩
    rintro ⟨rfl, raw, state, rfl, -⟩
    cases shape
  | unreadable raw format unread =>
    refine ⟨by rintro ⟨⟩, ?_⟩
    rintro ⟨rfl, -⟩
    simp [MetricKind.wireFormat] at format
  | counter read counts =>
    refine ⟨by rintro ⟨⟩, ?_⟩
    rintro ⟨rfl, -⟩
    cases read
  | _ => simp [store, refuse]

/-- A number is never a snapshot, and neither is a version. -/
theorem ingestScraped_ne_aborted (m : Metrics) (kind : MetricKind) (scraped : Scraped)
    (now : Instant) : (m.ingestScraped kind scraped now).verdict ≠ .aborted := by
  have hplain : ∀ (m : Metrics) kind value, (∀ raw, value ≠ .object raw) →
      (m.ingest kind value now).verdict ≠ .aborted := by
    intro m kind value hvalue haborted
    obtain ⟨-, raw, -, hobject, -⟩ := (m.ingest_aborted_iff kind value now).mp haborted
    exact hvalue raw hobject
  unfold ingestScraped ingestVersion
  dsimp only
  split
  · split
    · exact hplain _ _ _ (by rintro _ ⟨⟩)
    · exact hplain _ _ _ (by rintro _ ⟨⟩)
  · exact hplain _ _ _ (by rintro _ ⟨⟩)

end Metrics

namespace Gateway

structure Gateways.Return (g : Gateways) : Prop where
  rpc : ∀ url method, g.rpc url method ≠ .fatal
  scrape : ∀ url series, g.scrape url series ≠ .fatal
  locate : ∀ ip, g.locate ip ≠ .fatal

theorem CallPolicy.run_ne_died {α : Type} (p : CallPolicy) (operation : String) {reply : Reply α}
    (h : reply ≠ .fatal) : p.run operation reply ≠ .died := by
  unfold run runOut
  split
  · rintro ⟨⟩
  · cases reply with
    | after delay result =>
      dsimp only
      split <;> rintro ⟨⟩
    | never => rintro ⟨⟩
    | fatal => contradiction

end Gateway

namespace Fleet

/-- The answer for a kind takes the task down. -/
def TaskContext.Deadly (c : TaskContext) (url : String) (kind : MetricKind) : Prop :=
  kind = .systemState ∧
    ∃ value, c.answer? url kind = some value ∧ (WireValue.ofJson value).EndsBeyondCalendar

/-- The snapshot that the task of an address gets takes it down. -/
def TaskContext.Overflows (c : TaskContext) (table : Table) (a : Address) : Prop :=
  table = .rpc ∧ c.admits a = true ∧ ∃ url, a.rpcUrl = .ok url ∧ c.Deadly url .systemState

/-- The task gives a host, or an error that is not about its own death. -/
def TaskEnd.Survived : TaskEnd → Prop
  | .built _ => True
  | .failed e _ => ∀ name, e ≠ .aborted name
  | .died => False

theorem Host.settle?_eq_none_iff (h : Host) (r : Ingest) :
    h.settle? r = none ↔ r.verdict = .aborted := by
  unfold settle?
  dsimp only
  split <;> simp [*]

theorem Polling.attempt_error_iff {α : Type} (p : Polling) {ends : CallEnd α}
    (hends : ends ≠ .died) (take : α → Host → Option Host) :
    (∃ spent, p.attempt ends take = .error spent) ↔
      ∃ value, ends.value? = some value ∧ take value p.host = none := by
  cases ends with
  | died => contradiction
  | returned elapsed result =>
    cases result with
    | error e => simp [attempt, CallEnd.value?]
    | ok value => cases htake : take value p.host <;> simp [attempt, CallEnd.value?, htake]

/-- Some element takes a run down, whatever came before it. -/
theorem foldlM_error_iff {σ α ε : Type} {f : σ → α → Except ε σ} {Deadly : α → Prop}
    (hstep : ∀ s x, (∃ e, f s x = .error e) ↔ Deadly x) (xs : List α) (s : σ) :
    (∃ e, xs.foldlM f s = .error e) ↔ ∃ x ∈ xs, Deadly x := by
  induction xs generalizing s with
  | nil => simp [pure, Except.pure]
  | cons x rest ih =>
    have hcons : (∃ y ∈ x :: rest, Deadly y) ↔ Deadly x ∨ ∃ y ∈ rest, Deadly y := by simp
    rw [List.foldlM_cons, hcons, ← hstep s x]
    cases hfirst : f s x with
    | error e => simp [bind, Except.bind]
    | ok next => simpa [bind, Except.bind] using ih next

theorem foldlM_takeSeries_ne_none (page : Keyed Scraped) (now : Instant) (kinds : List MetricKind)
    (host : Host) : kinds.foldlM (takeSeries page now) host ≠ none := by
  induction kinds generalizing host with
  | nil => rintro ⟨⟩
  | cons kind rest ih =>
    rw [List.foldlM_cons]
    have hfirst : takeSeries page now host kind ≠ none := by
      unfold takeSeries
      split
      · rw [Ne, Host.settle?_eq_none_iff]
        exact host.metrics.ingestScraped_ne_aborted kind _ now
      · rintro ⟨⟩
    cases htake : takeSeries page now host kind with
    | none => contradiction
    | some taken => exact ih taken

section

variable {c : TaskContext} (hreturn : c.gateways.Return)
include hreturn

theorem callKind_error_iff (url : String) (p : Polling) (kind : MetricKind) :
    (∃ spent, callKind c url p kind = .error spent) ↔ c.Deadly url kind := by
  unfold callKind TaskContext.Deadly TaskContext.answer?
  cases hmethod : kind.rpcMethod? with
  | none => simp
  | some method =>
    dsimp only
    rw [p.attempt_error_iff (c.policy.run_ne_died _ (hreturn.rpc url method))]
    simp only [Host.settle?_eq_none_iff, Metrics.ingest_aborted_iff, Option.bind_some]
    constructor
    · rintro ⟨value, hvalue, hkind, hends⟩
      exact ⟨hkind, value, hvalue, hends⟩
    · rintro ⟨hkind, value, hvalue, hends⟩
      exact ⟨value, hvalue, hkind, hends⟩

theorem callAll_error_iff (p : Polling) :
    (∃ spent, callAll c p = .error spent) ↔
      p.host.table = .rpc ∧ ∃ url, p.host.rpcUrl = some url ∧ c.Deadly url .systemState := by
  unfold callAll
  cases hurl : p.host.rpcUrl with
  | none => simp
  | some url =>
    dsimp only
    rw [foldlM_error_iff (callKind_error_iff hreturn url)]
    constructor
    · rintro ⟨kind, hmem, hdeadly⟩
      have hkind := hdeadly.1
      subst hkind
      refine ⟨?_, url, rfl, hdeadly⟩
      cases htable : p.host.table <;> simp [htable, Table.rpcCalls] at hmem ⊢
    · rintro ⟨htable, url', hurl', hdeadly⟩
      cases hurl'
      exact ⟨.systemState, by simp [htable, Table.rpcCalls], hdeadly⟩

theorem scrapeAll_ne_error (p : Polling) (spent : Effort) : scrapeAll c p ≠ .error spent := by
  intro h
  unfold scrapeAll at h
  split at h
  · cases h
  · next url _ =>
    obtain ⟨page, -, htake⟩ := (p.attempt_error_iff
      (c.policy.run_ne_died _ (hreturn.scrape url _)) _).mp ⟨spent, h⟩
    exact foldlM_takeSeries_ne_none page c.now _ p.host htake

theorem populate_error_iff (host : Host) (effort : Effort) :
    (∃ spent, populate c host effort = .error spent) ↔
      host.table = .rpc ∧ ∃ url, host.rpcUrl = some url ∧ c.Deadly url .systemState := by
  have hcall : (∃ spent, callAll c (.start host effort) = .error spent) ↔
      host.table = .rpc ∧ ∃ url, host.rpcUrl = some url ∧ c.Deadly url .systemState :=
    callAll_error_iff hreturn (.start host effort)
  unfold populate
  cases hcalled : callAll c (.start host effort) with
  | error spent => simpa [bind, Except.bind, hcalled] using hcall
  | ok called =>
    simp only [hcalled, reduceCtorEq, exists_false, false_iff] at hcall
    simpa [bind, Except.bind, scrapeAll_ne_error hreturn] using hcall

theorem situate_ne_error (host : Host) (spent : Effort) : situate c host ≠ .error spent := by
  have hlocate : ∀ effort spent, locate c host effort ≠ .error spent := by
    intro effort spent h
    unfold locate at h
    dsimp only at h
    split at h
    · cases h
    · split at h
      · next ip _ _ hrun => exact c.policy.run_ne_died _ (hreturn.locate ip) hrun
      · cases h
  by_cases hmode : c.geoMode = .disabled
  · simp [situate, hmode]
  · rw [situate_eq host hmode]
    cases hfound : locate c host .none with
    | error spent => exact absurd hfound (hlocate _ _)
    | ok r => simp [Except.map]

theorem pollHost_died_iff {table : Table} {a : Address} (urls : a.HasUrls table) (m : Metrics) :
    (pollHost c (.fresh table a m)).1 = .died ↔ c.Overflows table a := by
  unfold pollHost
  split
  · next spent hsituate => exact absurd hsituate (situate_ne_error hreturn _ _)
  · next e spent hsituate =>
    have hadmits : c.admits a = false := (situate_error hsituate).1
    simp [TaskContext.Overflows, hadmits]
  · next situated spent hsituate =>
    obtain ⟨hcontinues, -, hadmits⟩ := situate_ok hsituate
    have hpopulate := populate_error_iff hreturn situated spent
    rw [hcontinues.table, hcontinues.rpcUrl] at hpopulate
    have hurl : ∀ url, table = .rpc → ((Host.fresh table a m).rpcUrl = some url ↔
        a.rpcUrl = .ok url) := by
      rintro url rfl
      cases hrpc : a.rpcUrl <;> simp [Host.fresh, Table.usesRpc, Except.toOption, hrpc]
    have hoverflows : c.Overflows table a ↔ ∃ spent', populate c situated spent = .error spent' := by
      rw [hpopulate]
      constructor
      · rintro ⟨htable, -, url, haddress, hdeadly⟩
        exact ⟨htable, url, (hurl url htable).mpr haddress, hdeadly⟩
      · rintro ⟨htable, url, hfresh, hdeadly⟩
        exact ⟨htable, hadmits, url, (hurl url htable).mp hfresh, hdeadly⟩
    rw [hoverflows]
    split
    · next spent' hpopulate => simp [hpopulate]
    · next p hpopulate =>
      dsimp only [endOf]
      cases p.outcome <;> simp [hpopulate]

/-- A task dies of its snapshot only. -/
theorem collectHost_died_iff (table : Table) (a : Address) (m : Metrics) :
    (collectHost c table a m).ends = .died ↔ c.Overflows table a := by
  by_cases urls : a.HasUrls table
  · simpa [collectHost, Host.new_of_hasUrls urls m] using pollHost_died_iff hreturn urls m
  · obtain ⟨missing, hnew⟩ := Host.new_of_not_hasUrls urls m
    simp only [collectHost, hnew, reduceCtorEq, false_iff]
    rintro ⟨rfl, -, url, haddress, -⟩
    exact urls ⟨fun _ => ⟨url, haddress⟩, by rintro ⟨⟩⟩

end

/-- Every task whose calls return survives whatever it is answered, except for a snapshot
whose epoch ends beyond the calendar; and taking in one value has no other way to abort. -/
theorem survives_unless_epoch_overflows {c : TaskContext} (hreturn : c.gateways.Return)
    (table : Table) (a : Address) (m : Metrics) :
    ((collectHost c table a m).ends.Survived ↔ ¬c.Overflows table a) ∧
      ∀ (m' : Metrics) (kind : MetricKind) (value : WireValue) (now : Instant),
        (m'.ingest kind value now).verdict = .stored
            ∨ (∃ e, (m'.ingest kind value now).verdict = .refused e) ↔
          ¬(kind = .systemState ∧ value.EndsBeyondCalendar) := by
  refine ⟨?_, fun m' kind value now => ?_⟩
  · rw [← collectHost_died_iff hreturn table a m]
    have hends := collectHost_ends c table a m
    generalize (collectHost c table a m).ends = ends at hends ⊢
    cases hends with
    | unaddressed missing urls => simp [TaskEnd.Survived]
    | failed e urls nothing own => simp [TaskEnd.Survived, own]
    | built host urls continues => simp [TaskEnd.Survived]
    | died urls => simp [TaskEnd.Survived]
  · rw [← m'.ingest_aborted_iff kind value now]
    cases (m'.ingest kind value now).verdict <;> simp

def endlessEpoch : Json :=
  .object [("epoch", .text "12"), ("epochStartTimestampMs", .text "1700000000000"),
    ("epochDurationMs", .text "9223372036854775807")]

def endlessContext : TaskContext where
  gateways := {
    rpc := fun _ method => .after 1 <| .ok <| match method with
      | .totalTransactionBlocks => .text "100"
      | .latestCheckpoint => .text "5"
      | .systemState | .validatorsApy => endlessEpoch
    scrape := fun _ _ => .never
    locate := fun _ => .never
    resolve := fun _ => none }
  policy := ⟨1000, false⟩
  geoMode := .disabled
  now := .atMs 1700000000000

def loneAddress : Address := ⟨"10.0.0.1", some 9000, some 9184, none, none, false⟩

/-- The endless epoch costs the reference host; a full node is never asked for it. -/
theorem endless_epoch_costs_reference :
    endlessContext.gateways.Return ∧
      ¬(collectHost endlessContext .rpc loneAddress (.new 5)).ends.Survived ∧
      (collectHost endlessContext .node loneAddress (.new 5)).ends.Survived := by
  have hreturn : endlessContext.gateways.Return :=
    ⟨by rintro _ _ ⟨⟩, by rintro _ _ ⟨⟩, by rintro _ ⟨⟩⟩
  have hends : (WireValue.ofJson endlessEpoch).EndsBeyondCalendar :=
    (((Metrics.new 5).ingest_aborted_iff .systemState (.ofJson endlessEpoch) ⟨0⟩).mp (by decide)).2
  have hoverflows : endlessContext.Overflows .rpc loneAddress :=
    ⟨rfl, by decide, _, rfl, rfl, endlessEpoch, rfl, hends⟩
  refine ⟨hreturn, ?_, ?_⟩
  · intro hsurvived
    exact (survives_unless_epoch_overflows hreturn .rpc loneAddress (.new 5)).1.mp hsurvived hoverflows
  · exact (survives_unless_epoch_overflows hreturn .node loneAddress (.new 5)).1.mpr
      (by rintro ⟨⟨⟩, _⟩)

theorem ingest_aborts_on_endlessEpoch :
    ¬∀ (m : Metrics) (kind : MetricKind) (value : WireValue) (now : Instant),
      (m.ingest kind value now).verdict ≠ .aborted := by
  intro h
  exact h (.new 5) .systemState (.object endlessEpoch) (.atMs 1700000000000) (by decide)

end Fleet

end FleetHealth
