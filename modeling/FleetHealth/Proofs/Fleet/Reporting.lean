import FleetHealth.Proofs.Fleet.Survival
import FleetHealth.Proofs.Metrics.Refusal

/-! # What a host reports of its calls

The calls of a host are settled by its gateways before any value is taken in. Read in order
they are a list of events: a call that failed, something for a kind, or a kind that was looked
for in vain. Each event has one outcome, and all but the values that were taken in leave one
message. Only a host whose calls failed one and all is lost, and with its metrics unchanged.
-/
namespace FleetHealth

open Clock Exposition Gateway Net

namespace Gateway.CallEnd

variable {α β : Type}

def map (f : α → β) : CallEnd α → CallEnd β
  | .returned elapsed result => .returned elapsed (result.map f)
  | .died => .died

def error? : CallEnd α → Option GatewayError
  | .returned _ (.error e) => some e
  | .returned _ (.ok _) | .died => none

end Gateway.CallEnd

namespace Fleet

/-! ## Events and their outcomes -/

/-- What the task of a host meets with. -/
inductive Event where
  | failed (e : GatewayError)
  | answered (kind : MetricKind) (value : Json)
  | scraped (kind : MetricKind) (series : Scraped)
  /-- A kind without series on the page. -/
  | absent (kind : MetricKind)

def Event.kind? : Event → Option MetricKind
  | .failed _ => none
  | .answered kind _ | .scraped kind _ | .absent kind => some kind

def Event.ingest? (m : Metrics) (now : Instant) : Event → Option (MetricKind × Ingest)
  | .answered kind value => some (kind, m.ingest kind (.ofJson value) now)
  | .scraped kind series => some (kind, m.ingestScraped kind series now)
  | .failed _ | .absent _ => none

inductive Outcome where
  | failed (e : GatewayError)
  | ingested (kind : MetricKind)
  | refused (kind : MetricKind) (e : MetricsError)
  | missing (kind : MetricKind)
deriving DecidableEq, Repr

namespace Outcome

def kind? : Outcome → Option MetricKind
  | .failed _ => none
  | .ingested kind | .refused kind _ | .missing kind => some kind

/-- The message that is left; what was taken in leaves none. -/
def message? : Outcome → Option String
  | .failed e => some e.message
  | .ingested _ => none
  | .refused _ e => some e.message
  | .missing kind => some (GatewayError.missingMetric kind.name).message

end Outcome

/-- The outcome of an event, with the metrics before and after it. -/
inductive Meets (now : Instant) (m : Metrics) : Event → Outcome → Metrics → Prop
  | failed (e : GatewayError) : Meets now m (.failed e) (.failed e) m
  | absent (kind : MetricKind) : Meets now m (.absent kind) (.missing kind) m
  | ingested {event : Event} {kind : MetricKind} {r : Ingest}
      (came : event.ingest? m now = some (kind, r)) (stored : r.verdict = .stored) :
      Meets now m event (.ingested kind) r.metrics
  | refused {event : Event} {kind : MetricKind} {r : Ingest} {e : MetricsError}
      (came : event.ingest? m now = some (kind, r)) (fault : r.verdict = .refused e) :
      Meets now m event (.refused kind e) r.metrics

/-- The outcomes of events one after the other. -/
inductive MeetsAll (now : Instant) : Metrics → List Event → List Outcome → Metrics → Prop
  | nil (m : Metrics) : MeetsAll now m [] [] m
  | cons {m mid after : Metrics} {event : Event} {outcome : Outcome} {events : List Event}
      {outcomes : List Outcome} (first : Meets now m event outcome mid)
      (rest : MeetsAll now mid events outcomes after) :
      MeetsAll now m (event :: events) (outcome :: outcomes) after

variable {now : Instant} {m mid after : Metrics}

theorem MeetsAll.append {events events' : List Event} {outcomes outcomes' : List Outcome}
    (h : MeetsAll now m events outcomes mid) (h' : MeetsAll now mid events' outcomes' after) :
    MeetsAll now m (events ++ events') (outcomes ++ outcomes') after := by
  induction h with
  | nil => exact h'
  | cons first _ ih => exact .cons first (ih h')

theorem Meets.kind?_eq {event : Event} {outcome : Outcome} (h : Meets now m event outcome after) :
    outcome.kind? = event.kind? := by
  cases h with
  | failed | absent => rfl
  | ingested came | refused came =>
    cases event <;> cases came <;> rfl

theorem MeetsAll.kinds_eq {events : List Event} {outcomes : List Outcome}
    (h : MeetsAll now m events outcomes after) :
    outcomes.filterMap (·.kind?) = events.filterMap (·.kind?) := by
  induction h with
  | nil => rfl
  | cons first _ ih => rw [List.filterMap_cons, List.filterMap_cons, ih, first.kind?_eq]

end Fleet

namespace Metrics

variable {m : Metrics} {kind : MetricKind} {value : WireValue} {series : Scraped} {now : Instant}

theorem updated_of_stored (h : (m.ingest kind value now).verdict = .stored) :
    (m.ingest kind value now).metrics.updated = true := by
  have hstep := m.ingest_step kind value now
  generalize m.ingest kind value now = r at hstep h ⊢
  cases hstep with
  | misshapen | unreadable | noSnapshot | untimed | overflow | noYields | stateless => cases h
  | _ => rfl

theorem updated_of_refused {e : MetricsError} (h : (m.ingest kind value now).verdict = .refused e) :
    (m.ingest kind value now).metrics.updated = m.updated := by
  rcases ingest_refused h with hsame | ⟨state, fault, huntimed⟩
  · rw [hsame]
  · rw [ingest_untimed huntimed]
    rfl

theorem updated_of_scraped (h : (m.ingestScraped kind series now).verdict = .stored) :
    (m.ingestScraped kind series now).metrics.updated = true := by
  rcases m.ingestScraped_cases kind series now with heq | ⟨hfirst, -⟩
  · rw [heq] at h ⊢
    exact updated_of_stored h
  · unfold ingestScraped
    dsimp only
    split
    · rfl
    · exact updated_of_stored hfirst

end Metrics

namespace Fleet

variable {now : Instant} {m mid after : Metrics}

theorem Meets.updated_iff {event : Event} {outcome : Outcome} (h : Meets now m event outcome after) :
    after.updated = true ↔ m.updated = true ∨ ∃ kind, outcome = .ingested kind := by
  cases h with
  | failed | absent => simp
  | @ingested _ kind r came stored =>
    have hupdated : r.metrics.updated = true := by
      cases event <;> cases came
      · exact Metrics.updated_of_stored stored
      · exact Metrics.updated_of_scraped stored
    simp [hupdated]
  | @refused _ kind r e came fault =>
    have hupdated : r.metrics.updated = m.updated := by
      cases event <;> cases came
      · exact Metrics.updated_of_refused fault
      · rw [Metrics.ingestScraped_refused fault]
    simp [hupdated]

theorem MeetsAll.updated_iff {events : List Event} {outcomes : List Outcome}
    (h : MeetsAll now m events outcomes after) :
    after.updated = true ↔ m.updated = true ∨ ∃ kind, .ingested kind ∈ outcomes := by
  induction h with
  | nil => simp
  | cons first _ ih =>
    rw [ih, first.updated_iff]
    simp only [List.mem_cons, exists_or, or_assoc, eq_comm]

/-! ## The calls of a host -/

def eventsOf : CallEnd (List Event) → List Event
  | .returned _ (.error e) => [.failed e]
  | .returned _ (.ok events) => events
  | .died => []

def pageEvent (page : Keyed Scraped) (kind : MetricKind) : Event :=
  match page.get? kind.name with
  | some series => .scraped kind series
  | none => .absent kind

namespace TaskContext

def kindCall? (c : TaskContext) (url : String) (kind : MetricKind) : Option (CallEnd (List Event)) :=
  kind.rpcMethod?.map fun method =>
    (c.policy.run method.name (c.gateways.rpc url method)).map fun value => [.answered kind value]

def pageCall (c : TaskContext) (url : String) (table : Table) : CallEnd (List Event) :=
  (c.policy.run "metrics scrape"
    (c.gateways.scrape url (table.scraped.filterMap (·.seriesSpec?)))).map fun page =>
      table.scraped.map (pageEvent page)

def kindCalls (c : TaskContext) (host : Host) : List (CallEnd (List Event)) :=
  match host.rpcUrl with
  | some url => host.table.rpcCalls.filterMap (c.kindCall? url)
  | none => []

def pageCalls (c : TaskContext) (host : Host) : List (CallEnd (List Event)) :=
  match host.metricsUrl with
  | some url => [c.pageCall url host.table]
  | none => []

def calls (c : TaskContext) (host : Host) : List (CallEnd (List Event)) :=
  c.kindCalls host ++ c.pageCalls host

def answeredKinds (c : TaskContext) (host : Host) : List MetricKind :=
  match host.rpcUrl with
  | some url => host.table.rpcCalls.filter fun kind => (c.answer? url kind).isSome
  | none => []

def scrapedKinds (c : TaskContext) (host : Host) : List MetricKind :=
  match host.metricsUrl.bind (c.page? · host.table) with
  | some _ => host.table.scraped
  | none => []

end TaskContext

/-- A call takes the task that makes it down neither by itself nor by its answer. -/
structure Spares (now : Instant) (call : CallEnd (List Event)) : Prop where
  alive : call ≠ .died
  harmless : ∀ kind value, .answered kind value ∈ eventsOf call →
    ∀ m : Metrics, (m.ingest kind (.ofJson value) now).verdict ≠ .aborted

theorem map_ne_died_iff {α β : Type} {call : CallEnd α} {f : α → β} :
    call.map f ≠ .died ↔ call ≠ .died := by
  cases call <;> simp [CallEnd.map]

theorem value?_of_mem_eventsOf {α : Type} {call : CallEnd α} {f : α → List Event} {kind : MetricKind}
    {answer : Json} (h : .answered kind answer ∈ eventsOf (call.map f)) :
    ∃ value, call.value? = some value ∧ .answered kind answer ∈ f value := by
  cases call with
  | died => cases h
  | returned elapsed result =>
    cases result with
    | error e => simp [eventsOf, CallEnd.map, Except.map] at h
    | ok value => exact ⟨value, rfl, h⟩

/-- When every call returns, only the snapshot can take the task down. -/
theorem spares_of_return {c : TaskContext} {host : Host} (hreturn : c.gateways.Return)
    (tame : host.table = .rpc → ∀ url, host.rpcUrl = some url → ¬c.Deadly url .systemState) :
    ∀ call ∈ c.calls host, Spares c.now call := by
  intro call hcall
  rcases List.mem_append.mp hcall with hkind | hpage
  · unfold TaskContext.kindCalls at hkind
    cases hurl : host.rpcUrl with
    | none => simp [hurl] at hkind
    | some url =>
      simp only [hurl, List.mem_filterMap, TaskContext.kindCall?, Option.map_eq_some_iff] at hkind
      obtain ⟨kind, hpolled, method, hmethod, rfl⟩ := hkind
      refine ⟨map_ne_died_iff.mpr (c.policy.run_ne_died _ (hreturn.rpc url method)), ?_⟩
      intro kind' answer hmem m haborted
      obtain ⟨value, hvalue, hmem⟩ := value?_of_mem_eventsOf hmem
      cases List.mem_singleton.mp hmem
      obtain ⟨rfl, hends⟩ := (m.ingest_aborted_iff kind (.ofJson answer) c.now).mp haborted
      have htable : host.table = .rpc := by
        cases htable : host.table <;> simp [htable, Table.rpcCalls] at hpolled ⊢
      refine tame htable url hurl ⟨rfl, answer, ?_, hends⟩
      rw [TaskContext.answer?, hmethod, Option.bind_some, hvalue]
  · unfold TaskContext.pageCalls at hpage
    cases hurl : host.metricsUrl with
    | none => simp [hurl] at hpage
    | some url =>
      simp only [hurl, List.mem_singleton] at hpage
      subst hpage
      refine ⟨map_ne_died_iff.mpr (c.policy.run_ne_died _ (hreturn.scrape url _)), ?_⟩
      intro kind answer hmem
      obtain ⟨page, -, hmem⟩ := value?_of_mem_eventsOf hmem
      obtain ⟨kind', -, hevent⟩ := List.mem_map.mp hmem
      unfold pageEvent at hevent
      split at hevent <;> cases hevent

theorem filterMap_cons_toList {α β : Type} (f : α → Option β) (x : α) (xs : List α) :
    (x :: xs).filterMap f = (f x).toList ++ xs.filterMap f := by
  cases h : f x <;> simp [h]

/-! ## The run of the calls -/

/-- The same host after events, with a message for each that was not taken in. -/
structure Host.Follows (now : Instant) (before after : Host) (events : List Event) : Prop where
  same : after = { before with metrics := after.metrics, errors := after.errors }
  met : ∃ outcomes, MeetsAll now before.metrics events outcomes after.metrics ∧
    after.errors = before.errors ++ outcomes.filterMap (·.message?)

namespace Host.Follows

variable {h h' h'' : Host} {events events' : List Event}

theorem refl (now : Instant) (h : Host) : h.Follows now h [] :=
  ⟨rfl, [], .nil _, (List.append_nil _).symm⟩

theorem trans (first : h.Follows now h' events) (second : h'.Follows now h'' events') :
    h.Follows now h'' (events ++ events') := by
  obtain ⟨outcomes, hmeets, herrors⟩ := first.met
  obtain ⟨outcomes', hmeets', herrors'⟩ := second.met
  refine ⟨?_, outcomes ++ outcomes', hmeets.append hmeets', ?_⟩
  · rw [second.same, first.same]
  · rw [herrors', herrors, List.filterMap_append, List.append_assoc]

theorem note (h : Host) {event : Event} {outcome : Outcome} {message : String}
    (hmeets : Meets now h.metrics event outcome h.metrics) (hmessage : outcome.message? = some message) :
    h.Follows now (h.note message) [event] := by
  refine ⟨rfl, [outcome], .cons hmeets (.nil _), ?_⟩
  simp [Host.note, hmessage]

/-- What came for a kind is settled. -/
theorem settle {event : Event} {kind : MetricKind} {r : Ingest}
    (came : event.ingest? h.metrics now = some (kind, r)) (settled : h.settle? r = some h') :
    h.Follows now h' [event] := by
  unfold Host.settle? at settled
  dsimp only at settled
  split at settled
  · next stored =>
    cases settled
    exact ⟨rfl, [.ingested kind], .cons (.ingested came stored) (.nil _), by simp [Outcome.message?]⟩
  · next e fault =>
    cases settled
    exact ⟨rfl, [.refused kind e], .cons (.refused came fault) (.nil _), by simp [Outcome.message?, Host.note]⟩
  · cases settled

end Host.Follows

def takeEvent (now : Instant) (h : Host) (event : Event) : Option Host :=
  match event with
  | .failed e => some (h.note e.message)
  | .answered kind value => h.settle? (h.metrics.ingest kind (.ofJson value) now)
  | .scraped kind series => h.settle? (h.metrics.ingestScraped kind series now)
  | .absent kind => some (h.note (GatewayError.missingMetric kind.name).message)

theorem Host.Follows.takeEvent {h h' : Host} {event : Event}
    (htake : Fleet.takeEvent now h event = some h') :
    h.Follows now h' [event] := by
  cases event with
  | failed e =>
    cases htake
    exact .note h (.failed e) rfl
  | absent kind =>
    cases htake
    exact .note h (.absent kind) rfl
  | answered kind value | scraped kind series => exact .settle rfl htake

theorem Host.Follows.foldlM_takeEvent {h h' : Host} {events : List Event}
    (htake : events.foldlM (Fleet.takeEvent now) h = some h') : h.Follows now h' events := by
  induction events generalizing h with
  | nil =>
    obtain rfl := Option.some.inj htake
    exact .refl now h
  | cons event rest ih =>
    rw [List.foldlM_cons, Option.bind_eq_bind, Option.bind_eq_some_iff] at htake
    obtain ⟨mid, hfirst, hrest⟩ := htake
    exact (Host.Follows.takeEvent hfirst).trans (ih hrest)

/-- Only an answer can take the task down. -/
theorem exists_foldlM_takeEvent {events : List Event}
    (harmless : ∀ kind value, .answered kind value ∈ events →
      ∀ m : Metrics, (m.ingest kind (.ofJson value) now).verdict ≠ .aborted) (h : Host) :
    ∃ h', events.foldlM (takeEvent now) h = some h' := by
  induction events generalizing h with
  | nil => exact ⟨h, rfl⟩
  | cons event rest ih =>
    have hfirst : ∃ mid, takeEvent now h event = some mid := by
      cases event with
      | failed | absent => exact ⟨_, rfl⟩
      | answered kind value =>
        have halive := harmless kind value List.mem_cons_self h.metrics
        exact Option.ne_none_iff_exists'.mp (mt (h.settle?_eq_none_iff _).mp halive)
      | scraped kind series =>
        have halive := h.metrics.ingestScraped_ne_aborted kind series now
        exact Option.ne_none_iff_exists'.mp (mt (h.settle?_eq_none_iff _).mp halive)
    obtain ⟨mid, hfirst⟩ := hfirst
    obtain ⟨h', hrest⟩ := ih (fun kind value hmem => harmless kind value (List.mem_cons_of_mem _ hmem)) mid
    exact ⟨h', by rw [List.foldlM_cons, hfirst]; exact hrest⟩

/-! ### Calls as lists of events -/

def attemptCall (now : Instant) (p : Polling) (call : CallEnd (List Event)) : Except Effort Polling :=
  p.attempt call fun events h => events.foldlM (takeEvent now) h

theorem Polling.attempt_map {α β : Type} (p : Polling) (ends : CallEnd α) (f : α → β)
    (take : β → Host → Option Host) :
    p.attempt (ends.map f) take = p.attempt ends fun value => take (f value) := by
  cases ends with
  | died => rfl
  | returned elapsed result => cases result <;> rfl

variable {c : TaskContext}

theorem callKind_eq (c : TaskContext) (url : String) (p : Polling) (kind : MetricKind) :
    callKind c url p kind = (c.kindCall? url kind).toList.foldlM (attemptCall c.now) p := by
  unfold callKind TaskContext.kindCall?
  cases kind.rpcMethod? with
  | none => rfl
  | some method =>
    simp only [Option.map_some, Option.toList_some, List.foldlM_cons, List.foldlM_nil, bind_pure]
    rw [attemptCall, Polling.attempt_map]
    simp only [List.foldlM_cons, List.foldlM_nil, bind_pure]
    rfl

theorem callAll_eq (c : TaskContext) (p : Polling) :
    callAll c p = (c.kindCalls p.host).foldlM (attemptCall c.now) p := by
  unfold callAll TaskContext.kindCalls
  cases p.host.rpcUrl with
  | none => rfl
  | some url =>
    dsimp only
    generalize p.host.table.rpcCalls = kinds
    induction kinds generalizing p with
    | nil => rfl
    | cons kind rest ih =>
      rw [filterMap_cons_toList, List.foldlM_append, List.foldlM_cons, callKind_eq]
      exact bind_congr ih

theorem foldlM_pageEvent (page : Keyed Scraped) (now : Instant) (kinds : List MetricKind) (h : Host) :
    (kinds.map (pageEvent page)).foldlM (takeEvent now) h = kinds.foldlM (takeSeries page now) h := by
  rw [List.foldlM_map]
  congr 1
  funext h kind
  unfold pageEvent takeSeries
  cases page.get? kind.name <;> rfl

theorem scrapeAll_eq (c : TaskContext) (p : Polling) :
    scrapeAll c p = (c.pageCalls p.host).foldlM (attemptCall c.now) p := by
  unfold scrapeAll TaskContext.pageCalls
  cases p.host.metricsUrl with
  | none => rfl
  | some url =>
    simp only [List.foldlM_cons, List.foldlM_nil, bind_pure]
    rw [attemptCall, TaskContext.pageCall, Polling.attempt_map]
    simp only [foldlM_pageEvent]

/-- A host being polled after some of its calls. -/
structure Tracks (now : Instant) (start : Host) (calls : List (CallEnd (List Event)))
    (p : Polling) : Prop where
  follows : start.Follows now p.host (calls.flatMap eventsOf)
  attempted : p.attempted = calls.length
  failures : p.failures = calls.filterMap (·.error?)

namespace Tracks

variable {start : Host} {calls calls' : List (CallEnd (List Event))} {call : CallEnd (List Event)}
  {p p' : Polling}

theorem begin (now : Instant) (start : Host) (effort : Effort) :
    Tracks now start [] (.start start effort) := ⟨.refl now start, rfl, rfl⟩

/-- One more call. -/
theorem attemptCall (h : Tracks now start calls p) (hok : Fleet.attemptCall now p call = .ok p') :
    Tracks now start (calls ++ [call]) p' := by
  have hevents : ∀ {next : Polling}, p.host.Follows now next.host (eventsOf call) →
      start.Follows now next.host ((calls ++ [call]).flatMap eventsOf) := by
    intro next hfollows
    rw [List.flatMap_append, List.flatMap_singleton]
    exact h.follows.trans hfollows
  cases call with
  | died => cases hok
  | returned elapsed result =>
    cases result with
    | error e =>
      cases hok
      refine ⟨hevents (.note p.host (.failed e) rfl), ?_, ?_⟩
      · simp [Polling.fail, Polling.wait, Polling.call, h.attempted]
      · simp [Polling.fail, Polling.wait, Polling.call, h.failures, CallEnd.error?]
    | ok events =>
      simp only [Fleet.attemptCall, Polling.attempt] at hok
      split at hok
      · next host htaken =>
        cases hok
        refine ⟨hevents (.foldlM_takeEvent htaken), ?_, ?_⟩
        · simp [Polling.wait, Polling.call, h.attempted]
        · simp [Polling.wait, Polling.call, h.failures, CallEnd.error?]
      · cases hok

theorem foldlM (h : Tracks now start calls p)
    (hok : calls'.foldlM (Fleet.attemptCall now) p = .ok p') : Tracks now start (calls ++ calls') p' := by
  induction calls' generalizing calls p with
  | nil =>
    cases hok
    rwa [List.append_nil]
  | cons call rest ih =>
    rw [List.foldlM_cons, bind_eq_ok] at hok
    obtain ⟨mid, hfirst, hrest⟩ := hok
    rw [List.append_cons]
    exact ih (h.attemptCall hfirst) hrest

theorem pageCalls_eq (h : Tracks c.now start calls p) : c.pageCalls p.host = c.pageCalls start := by
  rw [h.follows.same]
  rfl

end Tracks

/-- A host that has come through its calls has met with all of their events. -/
theorem tracks_of_populate {host : Host} {effort : Effort} {p : Polling}
    (h : populate c host effort = .ok p) : Tracks c.now host (c.calls host) p := by
  obtain ⟨called, hcalled, hscraped⟩ := bind_eq_ok.mp h
  rw [callAll_eq] at hcalled
  have htracks := (Tracks.begin c.now host effort).foldlM hcalled
  rw [scrapeAll_eq, htracks.pageCalls_eq] at hscraped
  exact htracks.foldlM hscraped

theorem exists_foldlM_attemptCall {calls : List (CallEnd (List Event))}
    (spares : ∀ call ∈ calls, Spares now call) (p : Polling) :
    ∃ p', calls.foldlM (attemptCall now) p = .ok p' := by
  induction calls generalizing p with
  | nil => exact ⟨p, rfl⟩
  | cons call rest ih =>
    obtain ⟨alive, harmless⟩ := spares call List.mem_cons_self
    have hfirst : ∃ mid, attemptCall now p call = .ok mid := by
      cases call with
      | died => contradiction
      | returned elapsed result =>
        cases result with
        | error e => exact ⟨_, rfl⟩
        | ok events =>
          obtain ⟨host, htaken⟩ : ∃ host, events.foldlM (takeEvent now) p.host = some host :=
            exists_foldlM_takeEvent harmless p.host
          exact ⟨{ p.call.wait elapsed with host := host }, by simp only [attemptCall, Polling.attempt, htaken]⟩
    obtain ⟨mid, hfirst⟩ := hfirst
    obtain ⟨p', hrest⟩ := ih (fun call hcall => spares call (List.mem_cons_of_mem _ hcall)) mid
    exact ⟨p', by rw [List.foldlM_cons, hfirst]; exact hrest⟩

/-- A host whose calls all spare its task gets through them. -/
theorem populate_tracks {host : Host} (spares : ∀ call ∈ c.calls host, Spares c.now call)
    (effort : Effort) : ∃ p, populate c host effort = .ok p ∧ Tracks c.now host (c.calls host) p := by
  obtain ⟨called, hcalled⟩ := exists_foldlM_attemptCall
    (fun call hcall => spares call (List.mem_append_left _ hcall)) (.start host effort)
  have htracks := (Tracks.begin c.now host effort).foldlM hcalled
  obtain ⟨p, hscraped⟩ := exists_foldlM_attemptCall
    (fun call hcall => spares call (List.mem_append_right _ hcall)) called
  have hpopulate : populate c host effort = .ok p := by
    refine bind_eq_ok.mpr ⟨called, (callAll_eq c _).trans hcalled, ?_⟩
    rw [scrapeAll_eq, htracks.pageCalls_eq, hscraped]
  exact ⟨p, hpopulate, tracks_of_populate hpopulate⟩

/-- A host that was built has met with all events of its calls. -/
theorem met_of_built {table : Table} {a : Address} {m : Metrics} {host : Host}
    (h : (collectHost c table a m).ends = .built host) :
    ∃ outcomes, MeetsAll c.now m ((c.calls host).flatMap eventsOf) outcomes host.metrics := by
  by_cases urls : a.HasUrls table
  · rw [collectHost, Host.new_of_hasUrls urls m] at h
    dsimp only at h
    unfold pollHost at h
    split at h
    · cases h
    · cases h
    · next situated spent hsituate =>
      obtain ⟨-, hmetrics, -⟩ := situate_ok hsituate
      split at h
      · cases h
      · next p hpopulate =>
        have htracks := tracks_of_populate hpopulate
        obtain ⟨outcomes, hmeets, -⟩ := htracks.follows.met
        rw [hmetrics] at hmeets
        have hcalls : c.calls p.host = c.calls situated := by
          rw [htracks.follows.same]
          rfl
        have houtcome : p.outcome = .ok host := by
          cases houtcome : p.outcome <;> simp [endOf, houtcome] at h
          rw [h]
        rw [Polling.outcome_ok houtcome, hcalls]
        exact ⟨outcomes, hmeets⟩
  · obtain ⟨missing, hnew⟩ := Host.new_of_not_hasUrls urls m
    rw [collectHost, hnew] at h
    cases h

/-! ## The kinds that were reached -/

def reached (call : CallEnd (List Event)) : List MetricKind := (eventsOf call).filterMap (·.kind?)

theorem reached_kindCall (c : TaskContext) (url : String) (kind : MetricKind) :
    (c.kindCall? url kind).toList.flatMap reached = [kind].filter fun k => (c.answer? url k).isSome := by
  unfold TaskContext.kindCall? TaskContext.answer?
  cases hmethod : kind.rpcMethod? with
  | none => simp [hmethod]
  | some method =>
    cases hrun : c.policy.run method.name (c.gateways.rpc url method) with
    | died => simp [hmethod, hrun, reached, CallEnd.map, eventsOf, CallEnd.value?]
    | returned elapsed result =>
      cases result <;>
        simp [hmethod, hrun, reached, CallEnd.map, Except.map, eventsOf, CallEnd.value?, Event.kind?]

theorem reached_kindCalls (c : TaskContext) (host : Host) :
    (c.kindCalls host).flatMap reached = c.answeredKinds host := by
  unfold TaskContext.kindCalls TaskContext.answeredKinds
  cases host.rpcUrl with
  | none => rfl
  | some url =>
    dsimp only
    induction host.table.rpcCalls with
    | nil => rfl
    | cons kind rest ih =>
      rw [filterMap_cons_toList, List.flatMap_append, reached_kindCall, ih, ← List.filter_append,
        List.singleton_append]

theorem reached_pageCalls (c : TaskContext) (host : Host) :
    (c.pageCalls host).flatMap reached = c.scrapedKinds host := by
  have hpage : ∀ page : Keyed Scraped, (host.table.scraped.map (pageEvent page)).filterMap (·.kind?) =
      host.table.scraped := by
    intro page
    have hkind : ∀ kind, (pageEvent page kind).kind? = some kind := by
      intro kind
      unfold pageEvent
      split <;> rfl
    simp [List.filterMap_map, hkind]
  unfold TaskContext.pageCalls TaskContext.scrapedKinds
  cases host.metricsUrl with
  | none => rfl
  | some url =>
    rw [List.flatMap_singleton, Option.bind_some]
    unfold TaskContext.pageCall TaskContext.page? reached
    cases c.policy.run "metrics scrape"
        (c.gateways.scrape url (host.table.scraped.filterMap (·.seriesSpec?))) with
    | died => rfl
    | returned elapsed result =>
      cases result with
      | error e => rfl
      | ok page => exact hpage page

theorem reached_calls (c : TaskContext) (host : Host) :
    ((c.calls host).flatMap eventsOf).filterMap (·.kind?) = c.answeredKinds host ++ c.scrapedKinds host := by
  rw [List.filterMap_flatMap]
  change (c.calls host).flatMap reached = _
  rw [TaskContext.calls, List.flatMap_append, reached_kindCalls, reached_pageCalls]

/-! ## The end of the calls -/

structure Host.Wired (h : Host) : Prop where
  rpc : h.rpcUrl.isSome = h.table.usesRpc
  metrics : h.metricsUrl.isSome = h.table.usesMetrics

theorem Host.Wired.fresh {table : Table} {a : Address} (urls : a.HasUrls table) (m : Metrics) :
    (Host.fresh table a m).Wired := by
  constructor
  · cases huses : table.usesRpc with
    | false => simp [Host.fresh, huses]
    | true =>
      obtain ⟨url, hurl⟩ := urls.rpc huses
      simp [Host.fresh, huses, hurl, Except.toOption]
  · cases huses : table.usesMetrics with
    | false => simp [Host.fresh, huses]
    | true =>
      obtain ⟨url, hurl⟩ := urls.metrics huses
      simp [Host.fresh, huses, hurl, Except.toOption]

/-- Every host that comes to its calls has the URLs for them. -/
theorem Host.Wired.situated {c : TaskContext} {table : Table} {a : Address} {m : Metrics}
    {host situated : Host} {spent : Effort} (hnew : Host.new table a m = .ok host)
    (hsituate : situate c host = .ok (.ok situated, spent)) : situated.Wired := by
  have hwired : host.Wired := by
    by_cases urls : a.HasUrls table
    · rw [Host.new_of_hasUrls urls, Except.ok.injEq] at hnew
      exact hnew ▸ Host.Wired.fresh urls m
    · obtain ⟨missing, herror⟩ := Host.new_of_not_hasUrls urls m
      rw [herror] at hnew
      cases hnew
  obtain ⟨hcontinues, -, -⟩ := situate_ok hsituate
  constructor
  · rw [hcontinues.rpcUrl, hcontinues.table, hwired.rpc]
  · rw [hcontinues.metricsUrl, hcontinues.table, hwired.metrics]

/-- All calls of the table for a kind, and a scrape if it uses metrics. -/
theorem Host.Wired.length_calls {host : Host} (wired : host.Wired) (c : TaskContext) :
    (c.calls host).length = host.table.rpcCalls.length + if host.table.usesMetrics then 1 else 0 := by
  have hkinds : (c.kindCalls host).length = host.table.rpcCalls.length := by
    unfold TaskContext.kindCalls
    cases hurl : host.rpcUrl with
    | none =>
      have hrpc := wired.rpc
      cases htable : host.table <;> simp [hurl, htable, Table.usesRpc] at hrpc
      rfl
    | some url =>
      rw [List.filterMap_length_eq_length]
      cases host.table <;> simp [Table.rpcCalls, TaskContext.kindCall?, MetricKind.rpcMethod?]
  have hpages : (c.pageCalls host).length = if host.table.usesMetrics then 1 else 0 := by
    unfold TaskContext.pageCalls
    rw [← wired.metrics]
    cases host.metricsUrl <;> rfl
  rw [TaskContext.calls, List.length_append, hkinds, hpages]

theorem Host.Wired.calls_ne_nil {host : Host} (wired : host.Wired) (c : TaskContext) :
    c.calls host ≠ [] := by
  rw [← List.length_pos_iff, wired.length_calls c]
  cases host.table <;> decide

namespace Tracks

variable {start : Host} {calls : List (CallEnd (List Event))} {p : Polling}

theorem all_failed_iff (h : Tracks now start calls p) :
    p.failures.length = p.attempted ↔ ∀ call ∈ calls, call.error?.isSome := by
  rw [h.failures, h.attempted]
  exact List.filterMap_length_eq_length

theorem outcome_of_all_failed (h : Tracks now start calls p) (called : calls ≠ [])
    (all : ∀ call ∈ calls, call.error?.isSome) :
    ∃ first, calls.head?.bind (·.error?) = some first ∧
      p.outcome = .error (.unreachable (toString start.address) calls.length first) := by
  obtain ⟨call, rest, rfl⟩ := List.exists_cons_of_ne_nil called
  obtain ⟨first, hfirst⟩ := Option.isSome_iff_exists.mp (all call List.mem_cons_self)
  have hfailures : p.failures = first :: rest.filterMap (·.error?) := by
    rw [h.failures, List.filterMap_cons_some hfirst]
  have hlength : p.failures.length = p.attempted := h.all_failed_iff.mpr all
  refine ⟨first, hfirst, ?_⟩
  unfold Polling.outcome
  rw [hlength, hfailures, h.attempted, h.follows.same]
  simp

theorem outcome_of_answer (h : Tracks now start calls p)
    (answered : ¬∀ call ∈ calls, call.error?.isSome) : p.outcome = .ok p.host := by
  have hlength : p.failures.length ≠ p.attempted := fun hall => answered (h.all_failed_iff.mp hall)
  unfold Polling.outcome
  split
  · rw [if_neg hlength]
  · rfl

end Tracks

/-- A host is lost when its calls failed one and all. Otherwise the messages it gets are those
of the failed calls, of the refused values and of the series that are missing, in that order
of the calls; whatever else was reached has been taken in. -/
theorem populate_reports_every_gap {c : TaskContext} {host : Host} (wired : host.Wired)
    (spares : ∀ call ∈ c.calls host, Spares c.now call) (effort : Effort) :
    ∃ p, populate c host effort = .ok p ∧
      p.attempted = host.table.rpcCalls.length + (if host.table.usesMetrics then 1 else 0) ∧
      p.failures = (c.calls host).filterMap (·.error?) ∧
      ((∃ e, p.outcome = .error e) ↔ ∀ call ∈ c.calls host, call.error?.isSome) ∧
      (∀ e, p.outcome = .error e → p.host.metrics = host.metrics ∧
        ∃ first, (c.calls host).head?.bind (·.error?) = some first ∧
          e = .unreachable (toString host.address) p.attempted first) ∧
      (∀ kept, p.outcome = .ok kept → kept = p.host) ∧
      ∃ outcomes,
        MeetsAll c.now host.metrics ((c.calls host).flatMap eventsOf) outcomes p.host.metrics ∧
        p.host.errors = host.errors ++ outcomes.filterMap (·.message?) ∧
        outcomes.filterMap (·.kind?) = c.answeredKinds host ++ c.scrapedKinds host ∧
        (p.host.metrics.updated = true ↔
          host.metrics.updated = true ∨ ∃ kind, .ingested kind ∈ outcomes) := by
  obtain ⟨p, hpopulate, htracks⟩ := populate_tracks spares effort
  obtain ⟨outcomes, hmeets, herrors⟩ := htracks.follows.met
  refine ⟨p, hpopulate, ?_, htracks.failures, ?_, ?_, ?_, outcomes, hmeets, herrors, ?_,
    hmeets.updated_iff⟩
  · rw [htracks.attempted, wired.length_calls c]
  · constructor
    · rintro ⟨e, houtcome⟩
      by_contra answered
      rw [htracks.outcome_of_answer answered] at houtcome
      cases houtcome
    · intro all
      obtain ⟨first, -, houtcome⟩ := htracks.outcome_of_all_failed (wired.calls_ne_nil c) all
      exact ⟨_, houtcome⟩
  · intro e houtcome
    by_cases all : ∀ call ∈ c.calls host, call.error?.isSome
    · obtain ⟨first, hfirst, hlost⟩ := htracks.outcome_of_all_failed (wired.calls_ne_nil c) all
      rw [houtcome, Except.error.injEq] at hlost
      have huntouched := (populate_polled hpopulate).untouched (htracks.all_failed_iff.mpr all)
      exact ⟨huntouched.1, first, hfirst, htracks.attempted ▸ hlost⟩
    · rw [htracks.outcome_of_answer all] at houtcome
      cases houtcome
  · intro kept houtcome
    by_cases all : ∀ call ∈ c.calls host, call.error?.isSome
    · obtain ⟨first, -, hlost⟩ := htracks.outcome_of_all_failed (wired.calls_ne_nil c) all
      rw [houtcome] at hlost
      cases hlost
    · rw [htracks.outcome_of_answer all, Except.ok.injEq] at houtcome
      exact houtcome.symm
  · rw [hmeets.kinds_eq, reached_calls]

/-- One call runs out of time, the other brings no number, and the page has two series. -/
def patchyContext : TaskContext where
  gateways := {
    rpc := fun _ method => match method with
      | .latestCheckpoint => .after 1 (.ok (.text "soon"))
      | _ => .never
    scrape := fun _ _ => .after 1 (.ok (.ofEntries
      [("sui_network_peers", ⟨.ofNat 4, .empty⟩), ("uptime", ⟨.ofNat 70, .empty⟩)]))
    locate := fun _ => .never
    resolve := fun _ => none }
  policy := ⟨1000, false⟩
  geoMode := .disabled
  now := ⟨0⟩

def patchyHost : Host := .fresh .node loneAddress (.new 5)

/-- The host is kept with what the page has; every gap has its message. -/
theorem patchy_host_is_kept :
    ∃ (p : Polling) (outcomes : List Outcome), populate patchyContext patchyHost .none = .ok p ∧
      p.outcome = .ok p.host ∧ p.host.metrics.updated = true ∧
      p.host.errors = outcomes.filterMap (·.message?) ∧
      outcomes.filterMap (·.kind?) = .latestCheckpoint :: Table.node.scraped ∧
      p.host.errors.length = 8 := by
  have hnew : Host.new .node loneAddress (.new 5) = .ok patchyHost := rfl
  have hsituate : situate patchyContext patchyHost = .ok (.ok patchyHost, .none) := rfl
  have hreturn : patchyContext.gateways.Return := by
    refine ⟨fun _ method => ?_, by rintro _ _ ⟨⟩, by rintro _ ⟨⟩⟩
    cases method <;> rintro ⟨⟩
  obtain ⟨p, hpopulate, -, -, -, -, -, outcomes, -, herrors, hkinds, -⟩ :=
    populate_reports_every_gap (Host.Wired.situated hnew hsituate)
      (spares_of_return hreturn (by rintro ⟨⟩)) .none
  have hrun : ∃ q, populate patchyContext patchyHost .none = .ok q ∧ q.outcome = .ok q.host ∧
      q.host.metrics.updated = true ∧ q.host.errors.length = 8 :=
    ⟨_, rfl, rfl, rfl, rfl⟩
  obtain ⟨q, hq, houtcome, hupdated, hlength⟩ := hrun
  rw [hpopulate, Except.ok.injEq] at hq
  subst hq
  exact ⟨p, outcomes, hpopulate, houtcome, hupdated, herrors, hkinds, hlength⟩

end Fleet

end FleetHealth
