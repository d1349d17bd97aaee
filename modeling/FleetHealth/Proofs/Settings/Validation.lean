import FleetHealth.Program
import FleetHealth.Proofs.Fleet.Accounting
import FleetHealth.Proofs.Fleet.CycleResult
import FleetHealth.Proofs.Fleet.Interleaving
import FleetHealth.Proofs.Settings.Resolution

/-! # Accepted configurations

What a configuration can do wrong it does when it is validated. With one that was accepted
there is a controller, its cycles can begin as long as the reference table is left on, and no
address lacks a port that its table needs.
-/
namespace FleetHealth

open Fleet Net Settings Text

theorem TableSet.ofList_toList (s : TableSet) : TableSet.ofList s.toList = s := by
  obtain ⟨rpc, node, validator⟩ := s
  cases rpc <;> cases node <;> cases validator <;> rfl

namespace Settings.Config

variable {urls : List Char → Except UrlError Url} {config : Config}

theorem ensure_eq_ok {condition : Bool} {e : ConfigError} {u : Unit} :
    ensure condition e = .ok u ↔ condition = true := by
  cases condition <;> simp [ensure]

/-- A configuration that was accepted has a reference table that is on and not empty, and
addresses for all tables. -/
theorem validate_ok (h : config.validate urls = .ok ()) :
    config.endpoints.rpc ≠ [] ∧ config.tables.rpc = true ∧
      ∃ addresses, config.allAddresses urls = .ok addresses := by
  unfold validate at h
  simp only [bind_eq_ok, ensure_eq_ok] at h
  obtain ⟨-, hreference, -, hrpc, -, -, -, -, -, -, -, -, addresses, haddresses, -⟩ := h
  exact ⟨by simpa using hreference, hrpc, addresses, haddresses⟩

theorem allAddresses_get {addresses : PerTable (List Address)}
    (h : config.allAddresses urls = .ok addresses) (table : Table) :
    config.addresses urls table = .ok (addresses.get table) := by
  unfold allAddresses at h
  simp only [bind_eq_ok] at h
  obtain ⟨rpc, hrpc, node, hnode, validator, hvalidator, h⟩ := h
  cases h
  cases table with
  | rpc => exact hrpc
  | node => exact hnode
  | validator => exact hvalidator

end Settings.Config

/-! ## The controller of an accepted configuration -/

namespace Program

variable {urls : List Char → Except UrlError Url} {config : Config}
  {collector : Collector} {built : Controller}

theorem controller_ok (h : config.validate urls = .ok ()) (collector : Collector) :
    ∃ built, controller urls config collector = .ok built := by
  obtain ⟨-, -, addresses, haddresses⟩ := Config.validate_ok h
  unfold controller
  rw [haddresses]
  exact ⟨_, rfl⟩

/-- The endpoints of a controller are those of its configuration, resolved one by one. -/
theorem controller_endpoints (h : controller urls config collector = .ok built) (table : Table) :
    List.Forall₂ (fun e a => e.resolve urls table = .ok a) (config.endpoints.get table)
      (built.endpoints.get table) := by
  unfold controller at h
  cases haddresses : config.allAddresses urls with
  | error e =>
    rw [haddresses] at h
    cases h
  | ok addresses =>
    rw [haddresses] at h
    cases h
    exact Config.addresses_ok (Config.allAddresses_get haddresses table)

theorem exists_resolve_of_mem (h : controller urls config collector = .ok built) {table : Table} {a : Address}
    (ha : a ∈ built.endpoints.get table) :
    ∃ e ∈ config.endpoints.get table, e.resolve urls table = .ok a := by
  have hresolved := controller_endpoints h table
  generalize config.endpoints.get table = endpoints at hresolved ⊢
  generalize built.endpoints.get table = addresses at hresolved ha
  induction hresolved with
  | nil => cases ha
  | cons hfirst _ ih =>
    rcases List.mem_cons.mp ha with rfl | ha
    · exact ⟨_, List.mem_cons_self, hfirst⟩
    · obtain ⟨e, he, hresolved⟩ := ih ha
      exact ⟨e, List.mem_cons_of_mem _ he, hresolved⟩

/-- The addresses of a controller are configured, so what holds of configured addresses holds
of all that it polls. -/
theorem controller_configured (h : controller urls config collector = .ok built) (table : Table) :
    ∀ a ∈ built.endpoints.get table, a.Configured urls := by
  intro a ha
  obtain ⟨e, -, hresolved⟩ := exists_resolve_of_mem h ha
  exact Endpoint.resolve_configured hresolved

end Program

/-! ## Errors of a collection -/

namespace Fleet.Collector

/-- No task fails for want of a URL when the table's URLs can be formed. -/
theorem errors_addressed {c : Collector} {s : Surroundings} {table : Table} {addresses : List Address}
    {carried : Keyed Metrics} (h : ∀ a ∈ addresses, a.HasUrls table) :
    ∀ e ∈ errorsOf (c.collect s table addresses carried), ∀ missing, e ≠ .address missing := by
  intro e he
  rw [(c.errorsOf_collect_perm s table carried addresses).mem_iff] at he
  obtain ⟨a, ha, herror⟩ := List.mem_filterMap.mp he
  have hends : TaskEnds _ table a _ (c.ends s table carried a) := c.ends_taskEnds a
  generalize c.ends s table carried a = ends at hends herror
  cases hends with
  | unaddressed missing urls => exact absurd (h a (mem_freshAddresses ha).1) urls
  | failed e urls nothing own addressed =>
    cases herror
    exact addressed
  | built => cases herror
  | died =>
    cases herror
    rintro missing ⟨⟩

end Fleet.Collector

/-- A configuration that was accepted gives a controller, with any collector and whichever URLs
there are. Whatever world its cycles find and however they and switches follow one another, as
long as the reference table is not switched off a cycle fails for lack of a reference only, and no
address fails for lack of a URL. For a resolved endpoint has exactly the URLs that its table
uses. -/
theorem accepted_config_is_never_at_fault (urls : List Char → Except UrlError Url) :
    (∀ config : Config, config.validate urls = .ok () → ∀ collector : Collector,
      ∃ built, Program.controller urls config collector = .ok built ∧
        (∀ moments, (∀ moment ∈ moments, moment ≠ .switch .rpc false) →
          ∀ stage ∈ ((Shared.begin (.ofList config.activeTables)).run built moments).cycles, ∀ e,
            stage.result? = some (.error (.failed e)) → ∃ reason, e = .referenceUnavailable reason) ∧
        ∀ w carried table, ∀ e ∈ errorsOf (built.collections w carried table),
          ∀ missing, e ≠ .address missing) ∧
    ∀ (e : Endpoint) (table : Table) (a : Address), e.resolve urls table = .ok a →
      ∃ parsed, Address.parse urls e.address = .ok parsed ∧
        ((trim e.address.toList).head? = some '/' → parsed.rpcPort = none) ∧
        ∀ m : Metrics, ∃ host, Host.new table a m = .ok host ∧
          host.rpcUrl =
            (if table.usesRpc then some (parsed.rpcUrlAt (e.callPort parsed)) else none) ∧
          host.metricsUrl =
            (if table.usesMetrics then some (parsed.metricsUrlAt e.scrapePort) else none) := by
  refine ⟨fun config hvalid collector => ?_, fun e table a hresolved => ?_⟩
  · obtain ⟨hreference, hrpc, -⟩ := Config.validate_ok hvalid
    obtain ⟨built, hbuilt⟩ := Program.controller_ok hvalid collector
    refine ⟨built, hbuilt, fun moments hmoments => ?_, fun w carried table => ?_⟩
    · have hnonempty : built.endpoints.rpc ≠ [] := by
        intro hnone
        have hlength := (Program.controller_endpoints hbuilt .rpc).length_eq
        exact hreference (List.eq_nil_of_length_eq_zero (hlength.trans (by simp [PerTable.get, hnone])))
      refine Shared.run_lacksReference (fun _ h => by cases h) ?_ hnonempty hmoments
      change (TableSet.ofList config.activeTables).get .rpc = true
      rw [Config.activeTables, TableSet.ofList_toList]
      exact hrpc
    · refine Collector.errors_addressed fun a ha => ?_
      obtain ⟨e, -, hresolved⟩ := Program.exists_resolve_of_mem hbuilt ha
      exact Endpoint.resolve_hasUrls hresolved
  · obtain ⟨parsed, hparsed, -⟩ := Endpoint.resolve_ok hresolved
    exact ⟨parsed, hparsed, (Address.parse_ports hparsed).2, Endpoint.resolve_host hresolved hparsed⟩

def threeWays : Config := { Config.default with
  endpoints := ⟨[.ofAddress "https://rpc.example.com/main", .ofAddress "10.0.0.1:9001"],
    [.ofAddress "/dns/node.example.com/tcp/8084"], [⟨"[2001:db8::1]", none, some 9200, none⟩]⟩ }

theorem threeWays_resolved :
    (Endpoint.ofAddress "https://rpc.example.com/main").resolve (readUrl asciiNames) .rpc =
        .ok ⟨"rpc.example.com", some 443, none, none, some "/main", true⟩ ∧
      (Endpoint.ofAddress "/dns/node.example.com/tcp/8084").resolve (readUrl asciiNames) .node =
        .ok ⟨"node.example.com", some 9000, some 9184, some 8084, none, false⟩ := by
  exact ⟨by decide +kernel, by decide +kernel⟩

theorem threeWays_never_at_fault :
    (∃ built, Program.controller (readUrl asciiNames) threeWays plainCollector = .ok built ∧ ∀ w,
      ∀ stage ∈ ((Shared.begin (.ofList threeWays.activeTables)).run built
          (Shared.schedule 0 w [(.node, false)])).cycles, ∀ e,
        stage.result? = some (.error (.failed e)) → ∃ reason, e = .referenceUnavailable reason) ∧
    ∃ host, Host.new .node ⟨"node.example.com", some 9000, some 9184, some 8084, none, false⟩ (.new 5)
        = .ok host ∧
      host.rpcUrl = some "http://node.example.com:9000" ∧
      host.metricsUrl = some "http://node.example.com:9184/metrics" := by
  obtain ⟨haccepted, hurls⟩ := accepted_config_is_never_at_fault (readUrl asciiNames)
  refine ⟨?_, ?_⟩
  · obtain ⟨built, hbuilt, hcycles, -⟩ := haccepted threeWays (by decide +kernel) plainCollector
    refine ⟨built, hbuilt, fun w => hcycles _ fun moment hmoment => ?_⟩
    simp only [Shared.schedule, List.map_cons, List.map_nil, List.cons_append, List.nil_append,
      List.mem_cons, List.not_mem_nil, or_false] at hmoment
    rcases hmoment with rfl | rfl | rfl | rfl <;> rintro ⟨⟩
  · obtain ⟨parsed, hparsed, -, hhost⟩ := hurls _ _ _ threeWays_resolved.2
    have hread : Address.parse (readUrl asciiNames) "/dns/node.example.com/tcp/8084" =
        .ok ⟨"node.example.com", none, none, some 8084, none, false⟩ := by decide +kernel
    cases hread.symm.trans hparsed
    obtain ⟨host, hnew, hrpc, hmetrics⟩ := hhost (.new 5)
    exact ⟨host, hnew, hrpc.trans (by decide +kernel), hmetrics.trans (by decide +kernel)⟩

end FleetHealth
