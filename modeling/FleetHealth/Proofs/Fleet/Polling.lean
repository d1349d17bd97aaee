import FleetHealth.Fleet.Polling
import FleetHealth.Proofs.Metrics.Ingested
import FleetHealth.Proofs.Metrics.Samples
import FleetHealth.Proofs.Results

/-! # The calls of a task

What the calls of a host's task do to the host: which samples its windows get, and that a
host all of whose calls failed has the metrics it came with.
-/
namespace FleetHealth

open Clock Exposition Gateway Net

def Gateway.CallEnd.value? {α : Type} : CallEnd α → Option α
  | .returned _ (.ok value) => some value
  | .returned _ (.error _) | .died => none

namespace Fleet

namespace TaskContext

def answer? (c : TaskContext) (url : String) (kind : MetricKind) : Option Json :=
  kind.rpcMethod?.bind fun method =>
    (c.policy.run method.name (c.gateways.rpc url method)).value?

def page? (c : TaskContext) (url : String) (table : Table) : Option (Keyed Scraped) :=
  (c.policy.run "metrics scrape"
    (c.gateways.scrape url (table.scraped.filterMap (·.seriesSpec?)))).value?

def answerSamples (c : TaskContext) (url : String) (kind : MetricKind) : List RateSample :=
  ((c.answer? url kind).map fun value => kind.samples (.ofJson value)).getD []

end TaskContext

def seriesSamples (page : Keyed Scraped) (kind : MetricKind) : List RateSample :=
  ((page.get? kind.name).map fun series => kind.samples (.number series.value)).getD []

namespace TaskContext

def callSamples (c : TaskContext) (table : Table) (url : Option String) : List RateSample :=
  match url with
  | some url => table.rpcCalls.flatMap (c.answerSamples url)
  | none => []

def scrapeSamples (c : TaskContext) (table : Table) (url : Option String) : List RateSample :=
  ((url.bind (c.page? · table)).map fun page => table.scraped.flatMap (seriesSamples page)).getD []

end TaskContext

structure Host.Continues (before after : Host) (samples : List RateSample) : Prop where
  table : after.table = before.table
  address : after.address = before.address
  rpcUrl : after.rpcUrl = before.rpcUrl
  metricsUrl : after.metricsUrl = before.metricsUrl
  ingested : before.metrics.Ingested after.metrics
  windows : after.metrics.windows = before.metrics.windows.feed samples

namespace Host.Continues

variable {h h' h'' : Host} {xs ys : List RateSample}

theorem refl (h : Host) : h.Continues h [] := ⟨rfl, rfl, rfl, rfl, .refl _, rfl⟩

theorem trans (first : h.Continues h' xs) (second : h'.Continues h'' ys) :
    h.Continues h'' (xs ++ ys) where
  table := second.table.trans first.table
  address := second.address.trans first.address
  rpcUrl := second.rpcUrl.trans first.rpcUrl
  metricsUrl := second.metricsUrl.trans first.metricsUrl
  ingested := first.ingested.trans second.ingested
  windows := by rw [second.windows, first.windows, RateWindows.feed_append]

theorem note (first : h.Continues h' xs) (message : String) : h.Continues (h'.note message) xs :=
  ⟨first.table, first.address, first.rpcUrl, first.metricsUrl, first.ingested, first.windows⟩

/-- A host that took in or refused a value goes on with the metrics after it. -/
theorem settle {r : Ingest} (ingested : h.metrics.Ingested r.metrics)
    (windows : r.metrics.windows = h.metrics.windows.feed xs) (hsettle : h.settle? r = some h') :
    h.Continues h' xs := by
  have hsettled : h.Continues { h with metrics := r.metrics } xs :=
    ⟨rfl, rfl, rfl, rfl, ingested, windows⟩
  unfold Host.settle? at hsettle
  dsimp only at hsettle
  split at hsettle
  · cases hsettle; exact hsettled
  · cases hsettle; exact hsettled.note _
  · cases hsettle

end Host.Continues

/-- A host being polled, compared with the host at the start of its calls. Failures never
outnumber the calls, and as long as every call failed nothing has changed. -/
structure Polled (start : Host) (samples : List RateSample) (p : Polling) : Prop where
  continues : start.Continues p.host samples
  failures_le : p.failures.length ≤ p.attempted
  untouched : p.failures.length = p.attempted → p.host.metrics = start.metrics ∧ samples = []

namespace Polled

variable {start : Host} {samples : List RateSample} {p p' : Polling}

theorem begin (start : Host) (effort : Effort) : Polled start [] (.start start effort) :=
  ⟨.refl start, Nat.le_refl _, fun _ => ⟨rfl, rfl⟩⟩

theorem failed (h : Polled start samples p) (elapsed : Nat) (e : GatewayError) :
    Polled start samples ((p.call.wait elapsed).fail e) := by
  have hfailures : ((p.call.wait elapsed).fail e).failures.length = p.failures.length + 1 :=
    List.length_append
  have hattempted : ((p.call.wait elapsed).fail e).attempted = p.attempted + 1 := rfl
  refine ⟨h.continues.note e.message, ?_, fun hall => ?_⟩
  · have hle := h.failures_le
    omega
  · exact h.untouched (by omega)

theorem answered {host : Host} {xs : List RateSample} (h : Polled start samples p) (elapsed : Nat)
    (htake : p.host.Continues host xs) :
    Polled start (samples ++ xs) { p.call.wait elapsed with host := host } := by
  have hle := h.failures_le
  have hattempted : (p.call.wait elapsed).attempted = p.attempted + 1 := rfl
  have hfailures : (p.call.wait elapsed).failures = p.failures := rfl
  refine ⟨h.continues.trans htake, ?_, fun hall => ?_⟩
  · simp only [hattempted, hfailures]
    omega
  · simp only [hattempted, hfailures] at hall
    omega

/-- A call keeps the comparison; the samples are those of the value it returned. -/
theorem attempt {α : Type} {ends : CallEnd α} {take : α → Host → Option Host}
    (h : Polled start samples p) (samplesOf : α → List RateSample)
    (htake : ∀ value host', take value p.host = some host' →
      p.host.Continues host' (samplesOf value))
    (hattempt : p.attempt ends take = .ok p') :
    Polled start (samples ++ (ends.value?.map samplesOf).getD []) p' := by
  cases ends with
  | died => cases hattempt
  | returned elapsed result =>
    cases result with
    | error e =>
      cases hattempt
      simpa [CallEnd.value?] using h.failed elapsed e
    | ok value =>
      unfold Polling.attempt at hattempt
      cases hhost : take value p.host with
      | none => simp [hhost] at hattempt
      | some host =>
        simp only [hhost, Except.ok.injEq] at hattempt
        subst hattempt
        exact h.answered elapsed (htake value host hhost)

theorem callKind {c : TaskContext} {url : String} {kind : MetricKind}
    (h : Polled start samples p) (hcall : Fleet.callKind c url p kind = .ok p') :
    Polled start (samples ++ c.answerSamples url kind) p' := by
  unfold Fleet.callKind at hcall
  cases hmethod : kind.rpcMethod? with
  | none =>
    simp only [hmethod, Except.ok.injEq] at hcall
    subst hcall
    simpa [TaskContext.answerSamples, TaskContext.answer?, hmethod] using h
  | some method =>
    simp only [hmethod] at hcall
    have hstep := h.attempt (fun value => kind.samples (.ofJson value)) (fun value host' hsettle =>
      .settle ((Metrics.Ingested.refl _).ingest kind _ c.now) (Metrics.windows_ingest ..) hsettle)
      hcall
    simpa [TaskContext.answerSamples, TaskContext.answer?, hmethod] using hstep

theorem foldlM_callKind {c : TaskContext} {url : String} {kinds : List MetricKind}
    (h : Polled start samples p) (hcalls : kinds.foldlM (Fleet.callKind c url) p = .ok p') :
    Polled start (samples ++ kinds.flatMap (c.answerSamples url)) p' := by
  induction kinds generalizing p samples with
  | nil =>
    cases hcalls
    simpa using h
  | cons kind rest ih =>
    rw [List.foldlM_cons, bind_eq_ok] at hcalls
    obtain ⟨q, hfirst, hrest⟩ := hcalls
    simpa [List.append_assoc] using ih (h.callKind hfirst) hrest

theorem callAll {c : TaskContext} (h : Polled start samples p)
    (hcalls : Fleet.callAll c p = .ok p') :
    Polled start (samples ++ c.callSamples start.table start.rpcUrl) p' := by
  unfold Fleet.callAll at hcalls
  rw [h.continues.rpcUrl, h.continues.table] at hcalls
  cases hurl : start.rpcUrl with
  | none =>
    simp only [hurl, Except.ok.injEq] at hcalls
    subst hcalls
    simpa [TaskContext.callSamples] using h
  | some url =>
    simp only [hurl] at hcalls
    exact h.foldlM_callKind hcalls

end Polled

theorem Host.Continues.takeSeries {h h' : Host} {page : Keyed Scraped} {now : Instant}
    {kind : MetricKind} (htake : Fleet.takeSeries page now h kind = some h') :
    h.Continues h' (seriesSamples page kind) := by
  unfold Fleet.takeSeries at htake
  cases hseries : page.get? kind.name with
  | none =>
    simp only [hseries, Option.some.injEq] at htake
    subst htake
    simpa [seriesSamples, hseries] using (Host.Continues.refl h).note _
  | some series =>
    simp only [hseries] at htake
    simpa [seriesSamples, hseries] using Host.Continues.settle
      ((Metrics.Ingested.refl _).ingestScraped kind series now) (Metrics.windows_ingestScraped ..) htake

theorem Host.Continues.foldlM_takeSeries {h h' : Host} {page : Keyed Scraped} {now : Instant}
    {kinds : List MetricKind} (htake : kinds.foldlM (Fleet.takeSeries page now) h = some h') :
    h.Continues h' (kinds.flatMap (seriesSamples page)) := by
  induction kinds generalizing h with
  | nil =>
    cases htake
    exact .refl _
  | cons kind rest ih =>
    rw [List.foldlM_cons, Option.bind_eq_bind, Option.bind_eq_some_iff] at htake
    obtain ⟨mid, hfirst, hrest⟩ := htake
    exact (Host.Continues.takeSeries hfirst).trans (ih hrest)

theorem Polled.scrapeAll {c : TaskContext} {start : Host} {samples : List RateSample}
    {p p' : Polling} (h : Polled start samples p) (hscrape : Fleet.scrapeAll c p = .ok p') :
    Polled start (samples ++ c.scrapeSamples start.table start.metricsUrl) p' := by
  unfold Fleet.scrapeAll at hscrape
  rw [h.continues.metricsUrl, h.continues.table] at hscrape
  cases hurl : start.metricsUrl with
  | none =>
    simp only [hurl, Except.ok.injEq] at hscrape
    subst hscrape
    simpa [TaskContext.scrapeSamples] using h
  | some url =>
    simp only [hurl] at hscrape
    exact h.attempt (fun page => start.table.scraped.flatMap (seriesSamples page))
      (fun page host' htake => .foldlM_takeSeries htake) hscrape

/-- All calls of a host that did not die on the way. -/
theorem populate_polled {c : TaskContext} {host : Host} {effort : Effort} {p : Polling}
    (h : populate c host effort = .ok p) :
    Polled host (c.callSamples host.table host.rpcUrl
      ++ c.scrapeSamples host.table host.metricsUrl) p := by
  unfold populate at h
  obtain ⟨called, hcalled, hscraped⟩ := bind_eq_ok.mp h
  simpa using ((Polled.begin host effort).callAll hcalled).scrapeAll hscraped

end Fleet

end FleetHealth
