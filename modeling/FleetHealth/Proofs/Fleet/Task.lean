import FleetHealth.Proofs.Fleet.Polling

/-! # The task of an address

How the task of an address can end, and with which host or metrics. A host that was built
has taken in exactly the samples of its calls; an address that failed gives back the
windows it came with; only a task that died gives back nothing.
-/
namespace FleetHealth

open Clock Exposition Gateway Net

structure Net.Address.HasUrls (a : Address) (table : Table) : Prop where
  rpc : table.usesRpc = true → ∃ url, a.rpcUrl = .ok url
  metrics : table.usesMetrics = true → ∃ url, a.metricsUrl = .ok url

namespace Fleet

def Host.fresh (table : Table) (a : Address) (m : Metrics) : Host where
  table := table
  address := a
  rpcUrl := if table.usesRpc then a.rpcUrl.toOption else none
  metricsUrl := if table.usesMetrics then a.metricsUrl.toOption else none
  status := .grey
  location := none
  metrics := m
  errors := []

theorem wanted_of_ok {wants : Bool} {url : Except MissingPort String}
    (h : wants = true → ∃ text, url = .ok text) :
    wanted wants url = .ok (if wants then url.toOption else none) := by
  cases wants with
  | false => rfl
  | true =>
    obtain ⟨text, rfl⟩ := h rfl
    rfl

theorem wanted_of_error {wants : Bool} {url : Except MissingPort String}
    (h : ¬(wants = true → ∃ text, url = .ok text)) :
    ∃ missing, wanted wants url = .error (.address missing) := by
  obtain ⟨rfl, hurl⟩ := Classical.not_imp.mp h
  cases url with
  | error missing => exact ⟨missing, rfl⟩
  | ok text => exact absurd ⟨text, rfl⟩ hurl

theorem Host.new_of_hasUrls {a : Address} {table : Table} (h : a.HasUrls table) (m : Metrics) :
    Host.new table a m = .ok (.fresh table a m) := by
  simp [Host.new, wanted_of_ok h.rpc, wanted_of_ok h.metrics, bind, Except.bind, Host.fresh]

theorem Host.new_of_not_hasUrls {a : Address} {table : Table} (h : ¬a.HasUrls table) (m : Metrics) :
    ∃ missing, Host.new table a m = .error (.address missing) := by
  by_cases hrpc : table.usesRpc = true → ∃ url, a.rpcUrl = .ok url
  · have hmetrics : ¬(table.usesMetrics = true → ∃ url, a.metricsUrl = .ok url) :=
      fun hmetrics => h ⟨hrpc, hmetrics⟩
    obtain ⟨missing, hwanted⟩ := wanted_of_error hmetrics
    exact ⟨missing, by simp [Host.new, wanted_of_ok hrpc, hwanted, bind, Except.bind]⟩
  · obtain ⟨missing, hwanted⟩ := wanted_of_error hrpc
    exact ⟨missing, by simp [Host.new, hwanted, bind, Except.bind]⟩

namespace TaskContext

def location? (c : TaskContext) (a : Address) : Option Location :=
  (a.ip?.or (c.gateways.resolve a.host)).bind fun ip =>
    (c.policy.run "geolocation" (c.gateways.locate ip)).value?

/-- Does the task of an address come to its calls? -/
def admits (c : TaskContext) (a : Address) : Bool :=
  c.geoMode ≠ .required || (c.location? a).isSome

def samples (c : TaskContext) (table : Table) (a : Address) : List RateSample :=
  if c.admits a then
    c.callSamples table a.rpcUrl.toOption ++ c.scrapeSamples table a.metricsUrl.toOption
  else []

end TaskContext

/-- What a lookup found, if it returned. -/
theorem locate_found {c : TaskContext} {host : Host} {effort spent : Effort}
    {result : Except HostError Location} (h : locate c host effort = .ok (result, spent)) :
    result.toOption = c.location? host.address := by
  unfold locate Host.ip? at h
  unfold TaskContext.location?
  cases hip : host.address.ip?.or (c.gateways.resolve host.address.host) with
  | none =>
    simp only [hip, Except.ok.injEq, Prod.mk.injEq] at h
    rw [← h.1]
    rfl
  | some ip =>
    simp only [hip, Option.bind_some] at h ⊢
    cases hrun : c.policy.run "geolocation" (c.gateways.locate ip) with
    | died => simp [hrun] at h
    | returned elapsed found =>
      simp only [hrun, Except.ok.injEq, Prod.mk.injEq] at h
      rw [← h.1]
      cases found <;> rfl

theorem applyLocation_ok {mode : GeoMode} {host located : Host}
    {result : Except HostError Location} (h : applyLocation mode host result = .ok located) :
    host.Continues located [] ∧ located.metrics = host.metrics ∧
      (mode = .required → result.toOption.isSome = true) := by
  cases result with
  | ok location =>
    simp only [applyLocation, Except.ok.injEq] at h
    subst h
    exact ⟨⟨rfl, rfl, rfl, rfl, .refl _, rfl⟩, rfl, fun _ => rfl⟩
  | error e =>
    cases mode with
    | required => simp [applyLocation] at h
    | disabled | bestEffort =>
      simp only [applyLocation, Except.ok.injEq] at h
      subst h
      exact ⟨(Host.Continues.refl host).note _, rfl, by rintro ⟨⟩⟩

theorem applyLocation_error {mode : GeoMode} {host : Host} {e : HostError}
    {result : Except HostError Location} (h : applyLocation mode host result = .error e) :
    mode = .required ∧ result = .error e := by
  cases result with
  | ok location => simp [applyLocation] at h
  | error e' =>
    cases mode with
    | required => exact ⟨rfl, by simpa [applyLocation] using h⟩
    | disabled | bestEffort => simp [applyLocation] at h

/-- An error that a gateway has caused: no task died of it, and the address is not to blame. -/
structure HostError.Remote (e : HostError) : Prop where
  alive : ∀ name, e ≠ .aborted name
  addressed : ∀ missing, e ≠ .address missing

theorem locate_error {c : TaskContext} {host : Host} {effort spent : Effort} {e : HostError}
    (h : locate c host effort = .ok (.error e, spent)) : e.Remote := by
  unfold locate at h
  dsimp only at h
  split at h
  · cases h
    exact ⟨by rintro _ ⟨⟩, by rintro _ ⟨⟩⟩
  · split at h
    · cases h
    · next elapsed found hrun =>
      cases found with
      | ok location => cases h
      | error fault =>
        cases h
        exact ⟨by rintro _ ⟨⟩, by rintro _ ⟨⟩⟩

theorem situate_eq {c : TaskContext} (host : Host) (h : c.geoMode ≠ .disabled) :
    situate c host = (locate c host .none).map fun r =>
      (applyLocation c.geoMode host r.1, r.2) := by
  unfold situate
  split
  · contradiction
  · rfl

theorem situate_ok {c : TaskContext} {host situated : Host} {spent : Effort}
    (h : situate c host = .ok (.ok situated, spent)) :
    host.Continues situated [] ∧ situated.metrics = host.metrics ∧
      c.admits host.address = true := by
  by_cases hmode : c.geoMode = .disabled
  · simp only [situate, hmode, Except.ok.injEq, Prod.mk.injEq] at h
    rw [← h.1]
    exact ⟨.refl host, rfl, by simp [TaskContext.admits, hmode]⟩
  · rw [situate_eq host hmode] at h
    cases hlocate : locate c host .none with
    | error spent => simp [hlocate, Except.map] at h
    | ok r =>
      simp only [hlocate, Except.map, Except.ok.injEq, Prod.mk.injEq] at h
      obtain ⟨hcontinues, hmetrics, hfound⟩ := applyLocation_ok h.1
      refine ⟨hcontinues, hmetrics, ?_⟩
      rw [locate_found hlocate] at hfound
      simpa [TaskContext.admits, Classical.or_iff_not_imp_left] using hfound

theorem situate_error {c : TaskContext} {host : Host} {e : HostError} {spent : Effort}
    (h : situate c host = .ok (.error e, spent)) :
    c.admits host.address = false ∧ e.Remote := by
  by_cases hmode : c.geoMode = .disabled
  · simp [situate, hmode] at h
  · rw [situate_eq host hmode] at h
    cases hlocate : locate c host .none with
    | error spent => simp [hlocate, Except.map] at h
    | ok r =>
      simp only [hlocate, Except.map, Except.ok.injEq, Prod.mk.injEq] at h
      obtain ⟨hrequired, hresult⟩ := applyLocation_error h.1
      have hlocation : c.location? host.address = none := by
        rw [← locate_found hlocate, hresult]
        rfl
      refine ⟨by simp [TaskContext.admits, hrequired, hlocation], ?_⟩
      exact locate_error (hlocate.trans (congrArg (fun x => Except.ok (x, r.2)) hresult))

theorem Polling.outcome_ok {p : Polling} {host : Host} (h : p.outcome = .ok host) :
    host = p.host := by
  unfold outcome at h
  split at h
  · split at h
    · cases h
    · exact (Except.ok.inj h).symm
  · exact (Except.ok.inj h).symm

theorem Polling.outcome_error {p : Polling} {e : HostError} (h : p.outcome = .error e) :
    p.failures.length = p.attempted ∧ e.Remote := by
  unfold outcome at h
  split at h
  · split at h
    · next hall =>
      cases h
      exact ⟨hall, by rintro _ ⟨⟩, by rintro _ ⟨⟩⟩
    · cases h
  · cases h

inductive TaskEnds (c : TaskContext) (table : Table) (a : Address) (m : Metrics) : TaskEnd → Prop
  | unaddressed (missing : MissingPort) (urls : ¬a.HasUrls table) :
      TaskEnds c table a m (.failed (.address missing) none)
  | failed (e : HostError) (urls : a.HasUrls table) (nothing : c.samples table a = [])
      (own : ∀ name, e ≠ .aborted name) (addressed : ∀ missing, e ≠ .address missing) :
      TaskEnds c table a m (.failed e (some (a.key, m.carryForward)))
  | built (host : Host) (urls : a.HasUrls table)
      (continues : (Host.fresh table a m).Continues host (c.samples table a)) :
      TaskEnds c table a m (.built host)
  | died (urls : a.HasUrls table) : TaskEnds c table a m .died

/-- The samples of a table are looked for under its own URLs only. -/
theorem samples_fresh (c : TaskContext) (table : Table) (a : Address) (m : Metrics) :
    c.callSamples (Host.fresh table a m).table (Host.fresh table a m).rpcUrl
        ++ c.scrapeSamples (Host.fresh table a m).table (Host.fresh table a m).metricsUrl =
      c.callSamples table a.rpcUrl.toOption ++ c.scrapeSamples table a.metricsUrl.toOption := by
  cases table with
  | node => rfl
  | rpc =>
    have hnone : c.scrapeSamples .rpc a.metricsUrl.toOption = [] := by
      cases h : a.metricsUrl.toOption.bind (c.page? · .rpc) <;>
        simp [TaskContext.scrapeSamples, h, Table.scraped]
    rw [hnone]
    rfl
  | validator =>
    have hnone : c.callSamples .validator a.rpcUrl.toOption = [] := by
      cases a.rpcUrl.toOption <;> rfl
    rw [hnone]
    rfl

theorem pollHost_ends {c : TaskContext} {table : Table} {a : Address} (urls : a.HasUrls table)
    (m : Metrics) : TaskEnds c table a m (pollHost c (.fresh table a m)).1 := by
  unfold pollHost
  split
  · exact .died urls
  · next e spent hsituate =>
    obtain ⟨hadmits, hremote⟩ := situate_error hsituate
    have hnothing : c.samples table a = [] := if_neg (by simp [show c.admits a = false from hadmits])
    exact .failed e urls hnothing hremote.alive hremote.addressed
  · next situated spent hsituate =>
    obtain ⟨hcontinues, hmetrics, hadmits⟩ := situate_ok hsituate
    split
    · exact .died urls
    · next p hpopulate =>
      have hpolled := populate_polled hpopulate
      rw [hcontinues.table, hcontinues.rpcUrl, hcontinues.metricsUrl, samples_fresh] at hpolled
      have hsamples : c.samples table a =
          c.callSamples table a.rpcUrl.toOption ++ c.scrapeSamples table a.metricsUrl.toOption :=
        if_pos hadmits
      rw [← hsamples] at hpolled
      have hhost := hcontinues.trans hpolled.continues
      dsimp only [endOf]
      cases houtcome : p.outcome with
      | ok host =>
        rw [Polling.outcome_ok houtcome]
        exact .built p.host urls hhost
      | error e =>
        obtain ⟨hall, hremote⟩ := Polling.outcome_error houtcome
        obtain ⟨huntouched, hnothing⟩ := hpolled.untouched hall
        have hcarried : p.host.carried = (a.key, m.carryForward) := by
          unfold Host.carried Host.key
          rw [hhost.address, huntouched, hmetrics]
          rfl
        rw [hcarried]
        exact .failed e urls hnothing hremote.alive hremote.addressed

theorem collectHost_ends (c : TaskContext) (table : Table) (a : Address) (m : Metrics) :
    TaskEnds c table a m (collectHost c table a m).ends := by
  by_cases urls : a.HasUrls table
  · simpa [collectHost, Host.new_of_hasUrls urls m] using pollHost_ends urls m
  · obtain ⟨missing, hnew⟩ := Host.new_of_not_hasUrls urls m
    simpa [collectHost, hnew] using TaskEnds.unaddressed missing urls

end Fleet

end FleetHealth
