import FleetHealth.Proofs.Fleet.Accounting
import FleetHealth.Proofs.Fleet.Alongside
import FleetHealth.Proofs.Fleet.Survival

/-! # The modes of geolocation

A lookup comes before the calls of a host and changes nothing that they look at. So when a
host is kept without its location, it only gains a note, and when it must have one, it is
given up before any call, with the windows it started with.
-/
namespace FleetHealth.Fleet

open Gateway Net

/-! ## Lookups -/

def TaskContext.lookup? (c : TaskContext) (a : Address) : Option (Except HostError Location) :=
  match a.ip?.or (c.gateways.resolve a.host) with
  | none => some (.error (.unresolved (toString a)))
  | some ip =>
    match c.policy.run "geolocation" (c.gateways.locate ip) with
    | .died => none
    | .returned _ result => some (result.mapError (.location (toString a)))

def TaskContext.inMode (c : TaskContext) (mode : GeoMode) : TaskContext := { c with geoMode := mode }

namespace TaskContext

variable {c : TaskContext} {found : Except HostError Location}

theorem lookup?_isSome {a : Address} (h : ∀ ip, c.gateways.locate ip ≠ .fatal) :
    ∃ found, c.lookup? a = some found := by
  unfold lookup?
  split
  · exact ⟨_, rfl⟩
  · next ip hip =>
    split
    · next hdied => exact absurd hdied (c.policy.run_ne_died _ (h ip))
    · exact ⟨_, rfl⟩

theorem locate_of_lookup? {host : Host} (h : c.lookup? host.address = some found) (mode : GeoMode)
    (effort : Effort) : ∃ spent, locate (c.inMode mode) host effort = .ok (found, spent) := by
  unfold lookup? at h
  unfold locate Host.ip?
  dsimp only [inMode]
  cases hip : host.address.ip?.or (c.gateways.resolve host.address.host) with
  | none =>
    rw [hip] at h
    cases h
    exact ⟨_, rfl⟩
  | some ip =>
    rw [hip] at h
    dsimp only at h ⊢
    cases hrun : c.policy.run "geolocation" (c.gateways.locate ip) with
    | died =>
      rw [hrun] at h
      cases h
    | returned elapsed result =>
      rw [hrun] at h
      cases h
      exact ⟨_, rfl⟩

end TaskContext

def Host.located (h : Host) : Except HostError Location → Host
  | .ok location => { h with location := some location }
  | .error e => { h with errors := e.message :: h.errors }

theorem Host.settle?_located (h : Host) (found : Except HostError Location) (r : Ingest) :
    (h.located found).settle? r = (h.settle? r).map (Host.located · found) := by
  unfold settle?
  cases found <;> cases r.verdict <;> rfl

/-- No call looks at what a lookup has left. -/
theorem located_unseen (found : Except HostError Location) :
    Unseen fun h h' => h' = h.located found where
  same := by
    rintro h h' rfl
    cases found <;> exact ⟨rfl, rfl, rfl, rfl⟩
  note := by
    rintro h h' rfl message
    cases found <;> rfl
  ingest := by
    rintro h h' rfl kind value now
    have hmetrics : (h.located found).metrics = h.metrics := by cases found <;> rfl
    rw [Host.settle?_located, hmetrics]
    cases h.settle? (h.metrics.ingest kind value now) with
    | none => exact .none
    | some settled => exact .some rfl
  ingestScraped := by
    rintro h h' rfl kind series now
    have hmetrics : (h.located found).metrics = h.metrics := by cases found <;> rfl
    rw [Host.settle?_located, hmetrics]
    cases h.settle? (h.metrics.ingestScraped kind series now) with
    | none => exact .none
    | some settled => exact .some rfl

/-! ## Tasks -/

def TaskEnd.mapHost (f : Host → Host) : TaskEnd → TaskEnd
  | .built host => .built (f host)
  | .failed e carried => .failed e carried
  | .died => .died

variable {c : TaskContext} {found : Except HostError Location}

/-- A task goes on from a lookup as it would without one. -/
theorem pollHost_located {mode : GeoMode} {host : Host} {spent : Effort}
    (h : situate (c.inMode mode) host = .ok (.ok (host.located found), spent)) :
    (pollHost (c.inMode mode) host).1 =
      (pollHost (c.inMode .disabled) host).1.mapHost (Host.located · found) := by
  have hpopulate : EndAlongside (fun h h' => h' = h.located found) spent
      (populate (c.inMode .disabled) host .none) (populate (c.inMode mode) (host.located found) spent) :=
    populate_alongside (located_unseen found) ⟨rfl, fun _ _ => rfl, fun _ _ => rfl⟩ rfl .none
  -- Without geolocation the calls come first.
  have hplain : situate (c.inMode .disabled) host = .ok (.ok host, .none) := rfl
  unfold pollHost
  rw [h, hplain]
  dsimp only
  generalize populate (c.inMode .disabled) host .none = plain at hpopulate ⊢
  generalize populate (c.inMode mode) (host.located found) spent = located at hpopulate ⊢
  cases hpopulate with
  | died e => rfl
  | @went p p' both =>
    dsimp only
    rcases both.outcome (located_unseen found) with ⟨e, he, he'⟩ | ⟨hok, hok'⟩
    · have hcarried : p'.host.carried = p.host.carried := by
        rw [both.host]
        cases found <;> rfl
      rw [he, he']
      dsimp only [endOf, TaskEnd.mapHost]
      rw [hcarried]
    · rw [hok, hok', both.host]
      rfl

theorem situate_bestEffort {host : Host} (h : c.lookup? host.address = some found)
    (hnew : host.errors = []) :
    ∃ spent, situate (c.inMode .bestEffort) host = .ok (.ok (host.located found), spent) := by
  obtain ⟨spent, hlocate⟩ := c.locate_of_lookup? h .bestEffort .none
  have hnoted : applyLocation .bestEffort host found = .ok (host.located found) := by
    cases found with
    | ok location => rfl
    | error e => simp [applyLocation, Host.note, Host.located, hnew]
  refine ⟨spent, ?_⟩
  rw [situate_eq host (by rintro ⟨⟩), hlocate]
  exact congrArg (fun r => Except.ok (r, spent)) hnoted

theorem situate_required {host : Host} (h : c.lookup? host.address = some found) :
    ∃ spent, situate (c.inMode .required) host =
      .ok (found.map (fun location => { host with location := some location }), spent) := by
  obtain ⟨spent, hlocate⟩ := c.locate_of_lookup? h .required .none
  refine ⟨spent, ?_⟩
  rw [situate_eq host (by rintro ⟨⟩), hlocate]
  cases found <;> rfl

namespace TaskEnd

theorem host?_mapHost (f : Host → Host) (ends : TaskEnd) :
    (ends.mapHost f).host? = ends.host?.map f := by
  cases ends <;> rfl

theorem kept?_mapHost (f : Host → Host) (ends : TaskEnd) : (ends.mapHost f).kept? = ends.kept? := by
  cases ends <;> rfl

theorem error?_mapHost (f : Host → Host) (ends : TaskEnd) (a : Address) :
    (ends.mapHost f).error? a = ends.error? a := by
  cases ends <;> rfl

end TaskEnd

namespace Collector

variable {c : Collector} {s : Surroundings} {table : Table} {carried : Keyed Metrics} {a : Address}

def inMode (c : Collector) (mode : GeoMode) : Collector := { c with geoMode := mode }

def lookup? (c : Collector) (s : Surroundings) (a : Address) : Option (Except HostError Location) :=
  (c.context s a).lookup? a

theorem ends_inMode (mode : GeoMode) (urls : a.HasUrls table) :
    (c.inMode mode).ends s table carried a =
      (pollHost ((c.context s a).inMode mode) (.fresh table a (c.startingMetrics carried a))).1 := by
  unfold ends collectHost
  rw [Host.new_of_hasUrls urls]
  rfl

theorem ends_unaddressed (urls : ¬a.HasUrls table) :
    ∃ missing, ∀ mode, (c.inMode mode).ends s table carried a = .failed (.address missing) none := by
  obtain ⟨missing, hnew⟩ := Host.new_of_not_hasUrls urls (c.startingMetrics carried a)
  refine ⟨missing, fun mode => ?_⟩
  unfold ends collectHost
  rw [show Host.new table a ((c.inMode mode).startingMetrics carried a) = _ from hnew]

variable {found : Except HostError Location}

theorem ends_bestEffort (h : c.lookup? s a = some found) :
    (c.inMode .bestEffort).ends s table carried a =
      ((c.inMode .disabled).ends s table carried a).mapHost (Host.located · found) := by
  by_cases urls : a.HasUrls table
  · obtain ⟨spent, hsituate⟩ := situate_bestEffort
      (show (c.context s a).lookup? (Host.fresh table a (c.startingMetrics carried a)).address = _ from h)
      rfl
    rw [ends_inMode _ urls, ends_inMode _ urls, pollHost_located hsituate]
  · obtain ⟨missing, hends⟩ := c.ends_unaddressed urls
    rw [hends, hends]
    rfl

theorem ends_required_found {location : Location} (h : c.lookup? s a = some (.ok location)) :
    (c.inMode .required).ends s table carried a =
      ((c.inMode .disabled).ends s table carried a).mapHost (Host.located · (.ok location)) := by
  by_cases urls : a.HasUrls table
  · obtain ⟨spent, hsituate⟩ := situate_required
      (show (c.context s a).lookup? (Host.fresh table a (c.startingMetrics carried a)).address = _ from h)
    have hlocated : situate ((c.context s a).inMode .required)
        (.fresh table a (c.startingMetrics carried a)) =
          .ok (.ok ((Host.fresh table a (c.startingMetrics carried a)).located (.ok location)), spent) :=
      hsituate
    rw [ends_inMode _ urls, ends_inMode _ urls, pollHost_located hlocated]
  · obtain ⟨missing, hends⟩ := c.ends_unaddressed urls
    rw [hends, hends]
    rfl

/-- Without its location an address with URLs is given up. -/
theorem ends_required_lost (urls : a.HasUrls table) {e : HostError}
    (h : c.lookup? s a = some (.error e)) :
    (c.inMode .required).ends s table carried a =
      .failed e (some (a.key, (c.startingMetrics carried a).carryForward)) := by
  obtain ⟨spent, hsituate⟩ := situate_required
    (show (c.context s a).lookup? (Host.fresh table a (c.startingMetrics carried a)).address = _ from h)
  rw [ends_inMode _ urls, pollHost, hsituate]
  rfl

end Collector

/-! ## Collections -/

def Host.locatedBy (find : Address → Option (Except HostError Location)) (h : Host) : Host :=
  match find h.address with
  | some found => h.located found
  | none => h

def Host.foundBy (find : Address → Option (Except HostError Location)) (h : Host) : Option Host :=
  match find h.address with
  | some (.ok location) => some { h with location := some location }
  | some (.error _) | none => none

/-- The outcome with failed lookups noted: the same as the plain one, but for locations and
one more note at the head of each host without one. -/
structure OnlyLocated (find : Address → Option (Except HostError Location))
    (plain noted : Except NoHosts Collected) : Prop where
  hosts : (hostsOf noted).Perm ((hostsOf plain).map (Host.locatedBy find))
  errors : (errorsOf noted).Perm (errorsOf plain)
  retained : ∀ key, (retainedOf noted).get? key = (retainedOf plain).get? key

/-- The outcome with locations required, for the addresses of a table that were polled. -/
structure LocatedOrLost (c : Collector) (s : Surroundings) (table : Table) (carried : Keyed Metrics)
    (addresses : List Address) (plain required : Except NoHosts Collected) : Prop where
  hosts : (hostsOf required).Perm ((hostsOf plain).filterMap (Host.foundBy (c.lookup? s)))
  total : (hostsOf required).length + (errorsOf required).length = keyCount addresses
  lost : ∀ a ∈ distinctAddresses addresses, a.HasUrls table →
    ∀ e, c.lookup? s a = some (.error e) → e ∈ errorsOf required ∧
      ∃ kept, (retainedOf required).get? a.key = some kept ∧
        kept.windows = (c.startingMetrics carried a).windows
  others : ∀ a ∈ distinctAddresses addresses,
    (a.HasUrls table → ∃ location, c.lookup? s a = some (.ok location)) →
      (∀ e, ((c.inMode .disabled).ends s table carried a).error? a = some e → e ∈ errorsOf required) ∧
        (retainedOf required).get? a.key = (retainedOf plain).get? a.key

namespace Collector

variable {c : Collector} {s : Surroundings} {table : Table} {carried : Keyed Metrics}
  {addresses : List Address}

theorem collect_retained (c : Collector) (s : Surroundings) (table : Table) (carried : Keyed Metrics)
    (addresses : List Address) (key : String) :
    (retainedOf (c.collect s table addresses carried)).get? key =
      ((distinctAddresses addresses).filterMap fun a => (c.ends s table carried a).kept?).lookup key := by
  have hdistinct : Keyed.Distinct
      ((distinctAddresses addresses).filterMap fun a => (c.ends s table carried a).kept?) :=
    nodup_filterMap_key (fun a _ h => congrArg Prod.fst (ends_kept h)) (nodup_distinctAddresses addresses)
  have hkept := Keyed.filter_key hdistinct key
  rw [← tasks_filterMap] at hkept
  rw [collect, retainedOf_conclude, gather_retained, Keyed.get?_ofEntries,
    eq_toList_of_perm ((((arrivals_perm _).filterMap _).filter _).trans (.of_eq hkept)), tasks_filterMap]
  cases ((distinctAddresses addresses).filterMap fun a => (c.ends s table carried a).kept?).lookup key <;>
    rfl

theorem built_bestEffort (h : ∀ a ∈ addresses, ∃ found, c.lookup? s a = some found) :
    (c.inMode .bestEffort).built s table carried addresses =
      ((c.inMode .disabled).built s table carried addresses).map (Host.locatedBy (c.lookup? s)) := by
  unfold built
  rw [List.map_filterMap]
  refine List.filterMap_congr fun a ha => ?_
  obtain ⟨found, hfound⟩ := h a (mem_freshAddresses ha).1
  rw [ends_bestEffort hfound, TaskEnd.host?_mapHost]
  cases hhost : ((c.inMode .disabled).ends s table carried a).host? with
  | none => rfl
  | some host =>
    have haddress : host.address = a := (ends_host hhost).address
    simp only [Option.map_some, Host.locatedBy, haddress, hfound]

theorem built_required (h : ∀ a ∈ addresses, ∃ found, c.lookup? s a = some found) :
    (c.inMode .required).built s table carried addresses =
      ((c.inMode .disabled).built s table carried addresses).filterMap
        (Host.foundBy (c.lookup? s)) := by
  unfold built
  rw [List.filterMap_filterMap]
  refine List.filterMap_congr fun a ha => ?_
  obtain ⟨found, hfound⟩ := h a (mem_freshAddresses ha).1
  have haddress : ∀ host, ((c.inMode .disabled).ends s table carried a).host? = some host →
      host.address = a := fun host hhost => (ends_host hhost).address
  cases found with
  | ok location =>
    rw [ends_required_found hfound, TaskEnd.host?_mapHost]
    cases hhost : ((c.inMode .disabled).ends s table carried a).host? with
    | none => rfl
    | some host =>
      obtain rfl := haddress host hhost
      simp only [Option.map_some, Option.bind_some, Host.foundBy, hfound]
      rfl
  | error e =>
    by_cases urls : a.HasUrls table
    · rw [ends_required_lost urls hfound]
      cases hhost : ((c.inMode .disabled).ends s table carried a).host? with
      | none => rfl
      | some host =>
        simp only [Option.bind_some, Host.foundBy, haddress host hhost, hfound]
        rfl
    · obtain ⟨missing, hends⟩ := c.ends_unaddressed urls
      rw [hends, hends]
      rfl

theorem onlyLocated_collect (h : ∀ a ∈ addresses, ∃ found, c.lookup? s a = some found) :
    OnlyLocated (c.lookup? s) ((c.inMode .disabled).collect s table addresses carried)
      ((c.inMode .bestEffort).collect s table addresses carried) where
  hosts := by
    have hperm := (c.inMode .bestEffort).hostsOf_collect_perm s table carried addresses
    rw [built_bestEffort h] at hperm
    exact hperm.trans (((c.inMode .disabled).hostsOf_collect_perm ..).symm.map _)
  errors := by
    refine ((c.inMode .bestEffort).errorsOf_collect_perm ..).trans
      (.trans (.of_eq (List.filterMap_congr fun a ha => ?_))
        ((c.inMode .disabled).errorsOf_collect_perm ..).symm)
    obtain ⟨found, hfound⟩ := h a (mem_freshAddresses ha).1
    rw [ends_bestEffort hfound, TaskEnd.error?_mapHost]
  retained key := by
    rw [collect_retained, collect_retained]
    refine congrArg (List.lookup key) (List.filterMap_congr fun a ha => ?_)
    obtain ⟨found, hfound⟩ := h a (mem_freshAddresses ha).1
    rw [ends_bestEffort hfound, TaskEnd.kept?_mapHost]

theorem locatedOrLost_collect (h : ∀ a ∈ addresses, ∃ found, c.lookup? s a = some found) :
    LocatedOrLost c s table carried addresses
      ((c.inMode .disabled).collect s table addresses carried)
      ((c.inMode .required).collect s table addresses carried) where
  hosts := by
    have hperm := (c.inMode .required).hostsOf_collect_perm s table carried addresses
    rw [built_required h] at hperm
    exact hperm.trans (((c.inMode .disabled).hostsOf_collect_perm ..).symm.filterMap _)
  total := (c.inMode .required).length_hosts_add_errors ..
  lost a ha urls e hlost := by
    have hends : (c.inMode .required).ends s table carried a = _ := ends_required_lost urls hlost
    have herrors := (c.inMode .required).errorsOf_collect_perm s table carried addresses
    constructor
    · rw [herrors.mem_iff, List.mem_filterMap]
      exact ⟨a, ha, by rw [hends]; rfl⟩
    · rw [collect_retained_key ha, hends]
      exact ⟨_, rfl, Metrics.windows_carryForward _⟩
  others a ha hfound := by
    have herrors := (c.inMode .required).errorsOf_collect_perm s table carried addresses
    have hsame : ((c.inMode .required).ends s table carried a).error? a =
          ((c.inMode .disabled).ends s table carried a).error? a ∧
        ((c.inMode .required).ends s table carried a).kept? =
          ((c.inMode .disabled).ends s table carried a).kept? := by
      by_cases urls : a.HasUrls table
      · obtain ⟨location, hlocation⟩ := hfound urls
        rw [ends_required_found hlocation, TaskEnd.error?_mapHost, TaskEnd.kept?_mapHost]
        exact ⟨rfl, rfl⟩
      · obtain ⟨missing, hends⟩ := c.ends_unaddressed urls
        rw [hends, hends]
        exact ⟨rfl, rfl⟩
    constructor
    · intro e he
      rw [herrors.mem_iff, List.mem_filterMap]
      exact ⟨a, ha, hsame.1.trans he⟩
    · rw [collect_retained_key ha, collect_retained_key ha, hsame.2]

end Collector

/-- The mode of geolocation decides only which locations hosts have, and whether a host may
have none. -/
theorem geolocation_only_locates (c : Collector) (s : Surroundings) (table : Table)
    (addresses : List Address) (carried : Keyed Metrics)
    (h : ∀ a ∈ addresses, ∀ ip, (s.gateways a).locate ip ≠ .fatal) :
    OnlyLocated (c.lookup? s) ((c.inMode .disabled).collect s table addresses carried)
        ((c.inMode .bestEffort).collect s table addresses carried) ∧
      LocatedOrLost c s table carried addresses
        ((c.inMode .disabled).collect s table addresses carried)
        ((c.inMode .required).collect s table addresses carried) := by
  have hlookups : ∀ a ∈ addresses, ∃ found, c.lookup? s a = some found :=
    fun a ha => TaskContext.lookup?_isSome (h a ha)
  exact ⟨Collector.onlyLocated_collect hlookups, Collector.locatedOrLost_collect hlookups⟩

/-- An endpoint that answers, but cannot be located in time, is noted in one mode and given up
with its samples in the other. -/
theorem unlocated_endpoint_noted_or_lost :
    let s := sameReply (.after 1 (.ok (.text "7")))
    let noted := (plainCollector.inMode .bestEffort).collect s .rpc [loneEndpoint] carriedSamples
    let required := (plainCollector.inMode .required).collect s .rpc [loneEndpoint] carriedSamples
    (hostsOf noted).map (·.errors.head?) = [some ("10.0.0.1:9000: geolocation failed: "
        ++ (GatewayError.timeout "geolocation" 1000).message)] ∧
      hostsOf required = [] ∧
      ∃ kept, (retainedOf required).get? loneEndpoint.key = some kept ∧
        kept.windows = (RateWindows.new 5).feed [(.transactions, 10), (.transactions, 20)] := by
  intro s noted required
  obtain ⟨hnoted, hrequired⟩ := geolocation_only_locates plainCollector s .rpc [loneEndpoint]
    carriedSamples (by rintro a ha ip ⟨⟩)
  refine ⟨?_, ?_, ?_⟩
  · refine List.perm_singleton.mp ((hnoted.hosts.map (·.errors.head?)).trans (.of_eq ?_))
    decide +kernel
  · refine (hrequired.hosts.trans (.of_eq (List.eq_nil_of_length_eq_zero ?_))).eq_nil
    decide +kernel
  · exact (hrequired.lost loneEndpoint (List.mem_singleton.mpr rfl) loneEndpoint_hasUrls _ rfl).2

end FleetHealth.Fleet
