import FleetHealth.Proofs.Fleet.PolledUrls
import FleetHealth.Proofs.Net.BareForms
import FleetHealth.Proofs.Net.UsableHosts
import FleetHealth.Proofs.Settings.FileRoundTrip
import FleetHealth.Proofs.Settings.Validation

/-! # URLs of accepted configurations

A configuration is accepted if its texts give addresses. Whether these have usable hosts is asked
of URLs only: the host of a multiaddr or of a bare text is any text, and goes into the URLs of its
endpoint as it is. These lead to the endpoint exactly if its host is usable.
-/
namespace FleetHealth

open Fleet Net Number Settings Text

variable {names : HostNames} {table : Table}

/-! ## Addresses that were read -/

namespace Net.Address

/-- What addresses have that were read: a path that stays whole in a URL, and ports of 16 bits. -/
structure FitsUrl (a : Address) : Prop where
  path : StaysPath a.pathText
  rpcPort : ∀ port, a.rpcPort = some port → port ≤ portMax
  metricsPort : ∀ port, a.metricsPort = some port → port ≤ portMax

variable {a : Address} {raw : String}

theorem staysPath_of_none (h : a.path = none) : StaysPath a.pathText := by
  rw [pathText, h]
  exact ⟨.inl rfl, fun _ hc => absurd hc List.not_mem_nil⟩

theorem FitsUrl.multiaddr {s : List Char} (h : readMultiaddr s = .ok a) : a.FitsUrl := by
  obtain ⟨_, -, -, hpath⟩ := readMultiaddr_ok h
  obtain ⟨hrpc, hmetrics⟩ := readMultiaddr_ports h
  exact ⟨staysPath_of_none hpath, by simp [hrpc], by simp [hmetrics]⟩

theorem FitsUrl.madeOf {u : WholeUrl} (h : a.MadeOf names u) (hmetrics : a.metricsPort = none) :
    a.FitsUrl := by
  refine ⟨h.pathText_eq ▸ staysPath_trimSlashes h.web.path, fun port hport => ?_, by simp [hmetrics]⟩
  obtain ⟨known, hknown, heq⟩ := h.web.port
  rw [h.rpcPort, heq] at hport
  exact Option.some.inj hport ▸ hknown

theorem FitsUrl.bare {s : List Char} (h : readBare s = .ok a) : a.FitsUrl := by
  obtain ⟨host, port, hcut, -, -, rfl⟩ := readBare_ok_iff.mp h
  exact ⟨staysPath_of_none rfl, hcut.port_le, by rintro _ ⟨⟩⟩

theorem parse_fitsUrl (hnames : names.Lawful) (h : parse (readUrl names) raw = .ok a) :
    a.FitsUrl := by
  by_cases hslash : (trim raw.toList).head? = some '/'
  · exact .multiaddr ((parse_multiaddr hslash).symm.trans h)
  · by_cases hmark : hasSchemeMark (trim raw.toList) = true
    · obtain ⟨u, hfrom⟩ := exists_readFrom ⟨hslash, hmark⟩ h
      exact .madeOf (.of_readFrom hnames hfrom) hfrom.noOtherPorts.1
    · exact .bare ((parse_bare hslash (mt hasSchemeMark_iff.mpr hmark) a).mp h)

end Net.Address

/-! ## Resolved endpoints -/

namespace Settings.Endpoint

variable {e : Endpoint} {a : Address}

theorem resolve_fitsUrl (hnames : names.Lawful) (hports : ∀ port ∈ e.setPorts, port ≤ portMax)
    (h : e.resolve (readUrl names) table = .ok a) : a.FitsUrl := by
  obtain ⟨parsed, hparsed, rfl⟩ := resolve_ok h
  obtain ⟨hpath, hrpc, hmetrics⟩ := Address.parse_fitsUrl hnames hparsed
  refine ⟨hpath, choosePort_le (fun port hport => ?_) hrpc (by decide),
    choosePort_le (fun port hport => ?_) hmetrics (by decide)⟩
  · exact hports port (by simp [setPorts, hport])
  · exact hports port (by simp [setPorts, hport])

/-- The host of a URL was looked at when the URL was read. -/
theorem usableHost_of_url (hnames : names.Lawful) (hurl : IsUrlText e.address)
    (h : e.resolve (readUrl names) table = .ok a) : UsableHost names a.host.toList := by
  obtain ⟨parsed, hparsed, rfl⟩ := resolve_ok h
  obtain ⟨url, hread, hscheme, rfl⟩ := Address.parse_url hurl hparsed
  exact .of_readUrl hnames hread hscheme

end Settings.Endpoint

/-! ## Hosts -/

/-- The URLs of a host lead to its address. -/
structure Fleet.Host.UrlsLead (names : HostNames) (host : Host) : Prop where
  rpc : ∀ target, host.rpcUrl = some target → Leads names target host.address.host host.address.rpcPort
  metrics : ∀ target, host.metricsUrl = some target →
    Leads names target host.address.host host.address.metricsPort

theorem wantedUrl_eq_some_iff {wants : Bool} {url : Except MissingPort String} {target : String} :
    (if wants then url.toOption else none) = some target ↔ wants = true ∧ url = .ok target := by
  cases wants with
  | false => simp
  | true => cases url <;> simp [Except.toOption]

theorem Fleet.Host.urlsLead_fresh_iff (hnames : names.Lawful) {a : Address} (hfits : a.FitsUrl)
    (hurls : a.HasUrls table) (m : Metrics) :
    (Host.fresh table a m).UrlsLead names ↔ UsableHost names a.host.toList := by
  constructor
  · -- every table polls at least one of the two URLs
    intro hlead
    cases huses : table.usesRpc with
    | true =>
      obtain ⟨target, htarget⟩ := hurls.rpc huses
      have hhost := hlead.rpc target (wantedUrl_eq_some_iff.mpr ⟨huses, htarget⟩)
      exact (Address.rpcUrl_leads_iff hnames hfits.path hfits.rpcPort htarget).mp hhost
    | false =>
      have hmetrics : table.usesMetrics = true := by
        cases table with
        | rpc | node => cases huses
        | validator => rfl
      obtain ⟨target, htarget⟩ := hurls.metrics hmetrics
      have hhost := hlead.metrics target (wantedUrl_eq_some_iff.mpr ⟨hmetrics, htarget⟩)
      exact (Address.metricsUrl_leads_iff hnames hfits.metricsPort htarget).mp hhost
  · intro husable
    refine ⟨fun target htarget => ?_, fun target htarget => ?_⟩
    · have hrpc := (wantedUrl_eq_some_iff.mp htarget).2
      exact (Address.rpcUrl_leads_iff hnames hfits.path hfits.rpcPort hrpc).mpr husable
    · have hmetrics := (wantedUrl_eq_some_iff.mp htarget).2
      exact (Address.metricsUrl_leads_iff hnames hfits.metricsPort hmetrics).mpr husable

/-! ## Configurations -/

namespace Settings.Config

variable {c : Config}

theorem mem_ports {e : Endpoint} (he : e ∈ c.endpoints.get table) : ∀ port ∈ e.setPorts, port ∈ c.ports := by
  intro port hport
  have hmem : e ∈ c.allEndpoints := by
    cases table with
    | rpc => exact List.mem_append_left _ (List.mem_append_left _ he)
    | node => exact List.mem_append_left _ (List.mem_append_right _ he)
    | validator => exact List.mem_append_right _ he
  exact List.mem_cons_of_mem _ (List.mem_flatMap.mpr ⟨e, hmem, hport⟩)

end Settings.Config

/-- The addresses of an accepted configuration give hosts, and the URLs of a host lead to its
address exactly if the host of the address is usable. It is if the endpoint was written as a URL,
but of other texts that is not asked before they are accepted. -/
theorem accepted_urls_lead_to_usable_hosts (hnames : names.Lawful) {config : Config}
    (hports : ∀ port ∈ config.ports, port ≤ portMax)
    (hvalid : config.validate (readUrl names) = .ok ()) (table : Table) :
    ∃ addresses, config.addresses (readUrl names) table = .ok addresses ∧
      List.Forall₂ (fun e a => (IsUrlText e.address → UsableHost names a.host.toList) ∧
        ∀ m, ∃ host, Host.new table a m = .ok host ∧ host.address = a ∧
          (host.UrlsLead names ↔ UsableHost names a.host.toList))
        (config.endpoints.get table) addresses := by
  obtain ⟨-, -, all, hall⟩ := Config.validate_ok hvalid
  have haddresses := Config.allAddresses_get hall table
  have hresolved := mapM_mapError_eq_ok.mp haddresses
  have hsmall : ∀ e ∈ config.endpoints.get table, ∀ port ∈ e.setPorts, port ≤ portMax :=
    fun e he port hport => hports port (Config.mem_ports he port hport)
  refine ⟨_, haddresses, ((List.forall₂_and_left _ _).mpr ⟨hsmall, hresolved⟩).imp ?_⟩
  rintro e a ⟨heports, hresolved⟩
  refine ⟨fun hurl => Endpoint.usableHost_of_url hnames hurl hresolved, fun m => ?_⟩
  have hurls := Endpoint.resolve_hasUrls hresolved
  exact ⟨_, Host.new_of_hasUrls hurls m, rfl,
    Host.urlsLead_fresh_iff hnames (Endpoint.resolve_fitsUrl hnames heports hresolved) hurls m⟩

theorem threeWays_urls_lead : asciiNames.Lawful ∧ (∀ port ∈ threeWays.ports, port ≤ portMax) ∧
    threeWays.validate (readUrl asciiNames) = .ok () ∧
    ∀ m, ∃ host, Host.new .node ⟨"node.example.com", some 9000, some 9184, some 8084, none, false⟩ m
      = .ok host ∧ host.UrlsLead asciiNames := by
  have hports : ∀ port ∈ threeWays.ports, port ≤ portMax := by decide
  have hvalid : threeWays.validate (readUrl asciiNames) = .ok () := by decide +kernel
  refine ⟨asciiNames_lawful, hports, hvalid, fun m => ?_⟩
  obtain ⟨addresses, haddresses, hhosts⟩ :=
    accepted_urls_lead_to_usable_hosts asciiNames_lawful hports hvalid .node
  have hnode : threeWays.addresses (readUrl asciiNames) .node =
      .ok [⟨"node.example.com", some 9000, some 9184, some 8084, none, false⟩] := by decide +kernel
  rw [hnode] at haddresses
  cases haddresses
  obtain ⟨⟨-, hhost⟩, -⟩ := List.forall₂_cons.mp hhosts
  obtain ⟨host, hnew, -, hlead⟩ := hhost m
  have husable : UsableHost asciiNames "node.example.com".toList :=
    .name (by decide) (by decide) (by decide) (by decide)
  exact ⟨host, hnew, hlead.mpr husable⟩

/-- An endpoint with a part of its address beyond 255. -/
def highOctet : Config := { Config.default with endpoints := ⟨[.ofAddress "10.0.0.256:9000"], [], []⟩ }

/-- It is accepted and polled at a text that is no URL. Written as that text, it is refused. -/
theorem highOctet_is_accepted : highOctet.validate (readUrl asciiNames) = .ok () ∧
    highOctet.addresses (readUrl asciiNames) .rpc = .ok [⟨"10.0.0.256", some 9000, none, none, none, false⟩] ∧
    (∀ m, ∃ host, Host.new .rpc ⟨"10.0.0.256", some 9000, none, none, none, false⟩ m = .ok host ∧
      host.rpcUrl = some "http://10.0.0.256:9000") ∧
    readUrl asciiNames "http://10.0.0.256:9000".toList = .error .invalidIpv4 ∧
    Address.parse (readUrl asciiNames) "http://10.0.0.256:9000" =
      .error (.invalid "http://10.0.0.256:9000" (.url .invalidIpv4)) := by
  refine ⟨by decide +kernel, by decide +kernel, fun m => ?_, by decide +kernel, by decide +kernel⟩
  have hurl : Address.rpcUrl ⟨"10.0.0.256", some 9000, none, none, none, false⟩ =
      .ok "http://10.0.0.256:9000" := by decide +kernel
  refine ⟨.fresh .rpc _ m, rfl, ?_⟩
  exact wantedUrl_eq_some_iff.mpr ⟨rfl, hurl⟩

end FleetHealth
