import FleetHealth.Proofs.Net.Literals
import FleetHealth.Proofs.Net.UrlAddresses

/-! # Hosts that URLs lead to

The host of an address is written into its URLs as it is. The URL then leads to that host
exactly if the host is an IP literal or a name that is read as itself. A host that was read from
a URL is one of these; of other hosts nobody has asked that they are.
-/
namespace FleetHealth.Net

open Number Text

variable {names : HostNames}

/-- A host that stays itself in a URL: an IP literal, or a name that is its own ASCII form, has no
character that domains may not have, and does not end in a number. -/
inductive UsableHost (names : HostNames) (host : List Char) : Prop
  | literal {ip : IpAddress} (read : readIp? host = some ip)
  | name (itself : names host = some host) (nonempty : host ≠ [])
      (allowed : host.any forbiddenInDomain = false) (numberless : endsInNumber host = false)

/-- The host that was meant is the one that was read, in any spelling if it is an IP literal. -/
def SameHost (meant read : String) : Prop :=
  read = meant ∨ ∃ ip, readIp? meant.toList = some ip ∧ readIp? read.toList = some ip

/-- The text is a URL for HTTP, and its host and port are those that were meant. -/
def Leads (names : HostNames) (target host : String) (port : Option Nat) : Prop :=
  ∃ url, readUrl names target.toList = .ok url ∧ (url.scheme = "http" ∨ url.scheme = "https") ∧
    SameHost host url.host ∧ url.port = port

/-! ## Hosts that were read -/

theorem UsableHost.of_read (hnames : names.Lawful) {s : List Char} {host : String}
    (h : specialHost names s = .ok host) : UsableHost names host.toList := by
  rcases specialHost_ok h with ⟨rest, hbracketed⟩ | ⟨domain, hdomain, hplain, hnonempty, hhost⟩
  · obtain ⟨groups, hgroups, rfl⟩ := bracketedHost_ok hbracketed
    obtain ⟨hlength, hsmall⟩ := readV6Groups?_shape hgroups
    rw [String.toList_ofList]
    exact .literal (readIp?_groupsText hlength hsmall)
  · rcases hhost with ⟨a, b, c, d, hoctets, rfl⟩ | ⟨hnumber, rfl⟩
    · obtain ⟨ha, hb, hc, hd⟩ := hostIpv4?_le hoctets
      rw [String.toList_ofList]
      exact .literal (readIp?_octetsText ha hb hc hd)
    · rw [String.toList_ofList]
      exact .name (hnames.again hdomain hplain) hnonempty hplain hnumber

theorem UsableHost.of_sameHost {meant read : String} (h : UsableHost names read.toList)
    (hsame : SameHost meant read) : UsableHost names meant.toList := by
  obtain rfl | ⟨ip, hip, -⟩ := hsame
  · exact h
  · exact .literal hip

/-- The host of a URL for HTTP is usable. -/
theorem UsableHost.of_readUrl (hnames : names.Lawful) {s : List Char} {url : Url}
    (h : readUrl names s = .ok url) (hscheme : url.scheme = "http" ∨ url.scheme = "https") :
    UsableHost names url.host.toList := by
  obtain ⟨rest, host, port, -, hauthority, hurl⟩ := readUrl_web h hscheme
  obtain ⟨text, hhost, -⟩ := readAuthority_ok hauthority
  rw [hurl]
  exact .of_read hnames hhost

/-! ## Hosts that are read back -/

theorem InLiteral.staysInAuthority {c : Char} (h : InLiteral c) :
    staysInAuthority c = true ∧ c ∉ ['[', ']'] :=
  forall_ascii (p := fun c => InLiteral c → Net.staysInAuthority c = true ∧ c ∉ ['[', ']']) (by decide)
    (inLiteral_ascii h) h

/-- In a URL any literal is read as the canonical text of its address. -/
theorem hostText_of_readIp? (hnames : names.Lawful) {host : String} {ip : IpAddress}
    (h : readIp? host.toList = some ip) :
    HostText names (hostInUrl host) (String.ofList ip.hostText) ∧ readIp? ip.hostText = some ip := by
  have hinUrl : hostInUrl host = if ip.isV6 then '[' :: (host.toList ++ [']']) else host.toList := by
    rw [hostInUrl, h]
  rcases readIp?_cases h with ⟨a, b, c, d, rfl, hoctets⟩ | ⟨groups, rfl, hgroups⟩
  · obtain ⟨ha, hb, hc, hd⟩ := readOctets?_le hoctets
    have htext : hostInUrl host = octetsText a b c d := hinUrl.trans (readOctets?_eq_octetsText hoctets)
    rw [htext]
    exact ⟨.octets hnames ha hb hc hd, readIp?_octetsText ha hb hc hd⟩
  · obtain ⟨hlength, hsmall⟩ := readV6Groups?_shape hgroups
    have htext : hostInUrl host = '[' :: (host.toList ++ [']']) := hinUrl
    rw [htext]
    exact ⟨.bracketed hgroups fun c hc => (readIp?_inLiteral h c hc).staysInAuthority,
      readIp?_groupsText hlength hsmall⟩

theorem UsableHost.hostText (hnames : names.Lawful) {host : String} (h : UsableHost names host.toList) :
    ∃ read, HostText names (hostInUrl host) read ∧ SameHost host read := by
  cases h with
  | literal hread =>
    obtain ⟨htext, hagain⟩ := hostText_of_readIp? hnames hread
    exact ⟨_, htext, .inr ⟨_, hread, by rwa [String.toList_ofList]⟩⟩
  | name itself nonempty allowed numberless =>
    have htext := hostText_of_name itself nonempty allowed numberless
    rw [String.ofList_toList] at htext
    exact ⟨host, htext, .inl rfl⟩

/-! ## URLs of a host -/

/-- A URL leads to the host in it exactly if that host is usable, whatever the scheme, the port and
the path are. -/
theorem leads_iff_usableHost (hnames : names.Lawful) {scheme : String}
    (hscheme : scheme = "http" ∨ scheme = "https") {port : Nat} (hport : port ≤ portMax)
    {path : List Char} (hpath : StaysPath path) (host : String) :
    Leads names (String.ofList (scheme.toList ++ "://".toList ++ (hostInUrl host ++ ':' :: decimal port ++ path)))
      host (some port) ↔ UsableHost names host.toList := by
  constructor
  · rintro ⟨url, hread, hweb, hsame, -⟩
    exact (UsableHost.of_readUrl hnames hread hweb).of_sameHost hsame
  · intro husable
    obtain ⟨read, htext, hsame⟩ := husable.hostText hnames
    have hread := readUrl_of_readWholeUrl (htext.readWholeUrl hscheme hport hpath)
    exact ⟨_, by rwa [String.toList_ofList], hscheme, hsame, rfl⟩

namespace Address

variable {a : Address} {target : String}

theorem exists_scheme (a : Address) : ∃ scheme, (scheme = "http" ∨ scheme = "https") ∧
    a.schemeText = scheme.toList ++ "://".toList := by
  cases htls : a.tls with
  | false => exact ⟨"http", .inl rfl, by rw [schemeText, htls]; rfl⟩
  | true => exact ⟨"https", .inr rfl, by rw [schemeText, htls]; rfl⟩

theorem rpcUrl_leads_iff (hnames : names.Lawful) (hpath : StaysPath a.pathText)
    (hport : ∀ port, a.rpcPort = some port → port ≤ portMax) (h : a.rpcUrl = .ok target) :
    Leads names target a.host a.rpcPort ↔ UsableHost names a.host.toList := by
  unfold rpcUrl at h
  split at h
  · next port hfound =>
    obtain ⟨scheme, hscheme, htext⟩ := a.exists_scheme
    rw [← Except.ok.inj h, hfound, htext, urlHost_eq, ← leads_iff_usableHost hnames hscheme
      (hport port hfound) hpath a.host]
    simp
  · cases h

theorem metricsUrl_leads_iff (hnames : names.Lawful)
    (hport : ∀ port, a.metricsPort = some port → port ≤ portMax) (h : a.metricsUrl = .ok target) :
    Leads names target a.host a.metricsPort ↔ UsableHost names a.host.toList := by
  have hkept : "/metrics".toList.all (fun c => escapedInPath c = false) = true := rfl
  have hpath : StaysPath "/metrics".toList :=
    ⟨.inr ⟨_, rfl⟩, fun c hc => of_decide_eq_true (List.all_eq_true.mp hkept c hc)⟩
  unfold metricsUrl at h
  split at h
  · next port hfound =>
    rw [← Except.ok.inj h, hfound, urlHost_eq, ← leads_iff_usableHost hnames (.inl rfl)
      (hport port hfound) hpath a.host]
    simp
  · cases h

end Address

end FleetHealth.Net
