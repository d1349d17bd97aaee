import FleetHealth.Proofs.Net.UrlTexts

/-! # Addresses made of URLs

An address keeps the scheme, host, port and path of the URL that it was made of, and neither
credentials nor a query, nor the slashes at the end of the path. From the URL of what it keeps
the same address is read again.
-/
namespace FleetHealth.Net

open Number Text

variable {names : HostNames}

/-! ## What an address keeps of a URL -/

/-- The address is made of this URL, whatever the ports that are not in URLs. -/
structure Address.MadeOf (names : HostNames) (a : Address) (u : WholeUrl) : Prop where
  web : WebUrl names u.url
  host : a.host = u.url.host
  rpcPort : a.rpcPort = u.url.port
  path : a.path = trimPath u.url.path
  tls : a.tls = decide (u.url.scheme = "https")

def IsUrlText (raw : String) : Prop :=
  (trim raw.toList).head? ≠ some '/' ∧ hasSchemeMark (trim raw.toList) = true

instance (raw : String) : Decidable (IsUrlText raw) :=
  inferInstanceAs (Decidable ((trim raw.toList).head? ≠ some '/' ∧ hasSchemeMark (trim raw.toList) = true))

/-- The address that a text gives, and the URL that it is read as. -/
structure Address.ReadFrom (names : HostNames) (a : Address) (raw : String) (text : WholeUrl) : Prop where
  isUrl : IsUrlText raw
  parsed : Address.parse (readUrl names) raw = .ok a
  read : readWholeUrl names (trim raw.toList) = .ok text

theorem readWholeUrl_of_readUrl {s : List Char} {url : Url} (h : readUrl names s = .ok url) :
    ∃ u, readWholeUrl names s = .ok u ∧ u.url = url := by
  unfold readWholeUrl
  rw [h]
  exact ⟨_, rfl, rfl⟩

theorem readUrl_of_readWholeUrl {s : List Char} {u : WholeUrl} (h : readWholeUrl names s = .ok u) :
    readUrl names s = .ok u.url := by
  unfold readWholeUrl at h
  obtain ⟨url, hurl, h⟩ := bind_eq_ok.mp h
  rw [hurl, ← Except.ok.inj h]

theorem Address.parse_of_isUrlText {urls : List Char → Except UrlError Url} {raw : String}
    (hraw : IsUrlText raw) : Address.parse urls raw = readUrlAddress urls (trim raw.toList) := by
  obtain ⟨hslash, hmark⟩ := hraw
  have hnonempty : trim raw.toList ≠ [] := by
    intro hnil
    rw [hnil] at hmark
    cases hmark
  unfold parse
  simp only [hnonempty, hslash, hmark, if_false, if_true]

theorem Address.parse_url {urls : List Char → Except UrlError Url} {raw : String} {a : Address}
    (hraw : IsUrlText raw) (h : Address.parse urls raw = .ok a) :
    ∃ url, urls (trim raw.toList) = .ok url ∧ (url.scheme = "http" ∨ url.scheme = "https") ∧
      a = { host := url.host, rpcPort := url.port, metricsPort := none, peerPort := none
            path := trimPath url.path, tls := url.scheme = "https" } :=
  readUrlAddress_eq_ok.mp ((parse_of_isUrlText hraw).symm.trans h)

theorem Address.parse_of_url {urls : List Char → Except UrlError Url} {raw : String} {url : Url}
    (hraw : IsUrlText raw) (hurl : urls (trim raw.toList) = .ok url)
    (hscheme : url.scheme = "http" ∨ url.scheme = "https") :
    Address.parse urls raw = .ok
      { host := url.host, rpcPort := url.port, metricsPort := none, peerPort := none
        path := trimPath url.path, tls := url.scheme = "https" } :=
  (parse_of_isUrlText hraw).trans (readUrlAddress_eq_ok.mpr ⟨url, hurl, hscheme, rfl⟩)

theorem Address.ReadFrom.noOtherPorts {a : Address} {raw : String} {text : WholeUrl}
    (h : a.ReadFrom names raw text) : a.metricsPort = none ∧ a.peerPort = none := by
  obtain ⟨url, -, -, rfl⟩ := Address.parse_url h.isUrl h.parsed
  exact ⟨rfl, rfl⟩

namespace Address.MadeOf

variable {a b : Address} {u v : WholeUrl}

theorem of_readFrom (hnames : names.Lawful) {raw : String} (h : a.ReadFrom names raw u) :
    a.MadeOf names u := by
  obtain ⟨url, hurl, hscheme, rfl⟩ := Address.parse_url h.isUrl h.parsed
  obtain ⟨v, hread, rfl⟩ := readWholeUrl_of_readUrl hurl
  obtain rfl := Except.ok.inj (hread.symm.trans h.read)
  exact ⟨.of_read hnames hurl hscheme, rfl, rfl, rfl, rfl⟩

theorem schemeText_eq (h : a.MadeOf names u) : a.schemeText = u.url.scheme.toList ++ "://".toList := by
  rcases h.web.scheme with hscheme | hscheme
  · rw [schemeText, h.tls, hscheme]
    rfl
  · rw [schemeText, h.tls, hscheme]
    rfl

theorem pathText_eq (h : a.MadeOf names u) : a.pathText = trimSlashes u.url.path.toList := by
  rw [pathText, h.path, trimPath_eq]
  split
  · next hempty => rw [hempty]; rfl
  · simp

/-- The URL of an address has the scheme, host and port of the one that it was made of, and its
path without the slashes at the end. -/
theorem rpcUrl_eq (h : a.MadeOf names u) : ∃ port, u.url.port = some port ∧
    a.rpcUrl = .ok (String.ofList (u.url.scheme.toList ++ "://".toList ++
      (hostInUrl u.url.host ++ ':' :: decimal port ++ trimSlashes u.url.path.toList))) := by
  obtain ⟨port, -, hport⟩ := h.web.port
  refine ⟨port, hport, ?_⟩
  rw [rpcUrl, h.rpcPort, hport]
  dsimp only
  rw [h.schemeText_eq, h.pathText_eq, urlHost_eq, h.host]
  simp

/-- The URL of an address is where the URL that it was made of is, without credentials and
without a query. -/
theorem rpcUrl_read (h : a.MadeOf names u) : ∃ target polled, a.rpcUrl = .ok target ∧
    readWholeUrl names target.toList = .ok polled ∧ polled.SamePlace u ∧ polled.Plain := by
  obtain ⟨port, hport, htarget⟩ := h.rpcUrl_eq
  obtain ⟨path, hread, hpath⟩ := h.web.readWholeUrl hport
  refine ⟨_, ⟨{ u.url with path }, [], [], none⟩, htarget, ?_, ?_, ?_⟩
  · rw [String.toList_ofList]
    exact hread
  · exact ⟨rfl, rfl, rfl, hpath⟩
  · exact ⟨rfl, rfl, rfl⟩

theorem wellFormed (h : a.MadeOf names u) : a.WellFormed where
  host := h.host ▸ h.web.slash_notMem_host
  path path hpath := by
    obtain ⟨segments, -, -, hsettled⟩ := h.web.path
    exact trimPath_shape (.inr ⟨_, hsettled⟩) (h.path ▸ hpath)

/-- Addresses are the same if the URLs that they were made of are in the same place and their
other ports are the same. -/
theorem eq_iff (ha : a.MadeOf names u) (hb : b.MadeOf names v) : a = b ↔
    u.SamePlace v ∧ a.metricsPort = b.metricsPort ∧ a.peerPort = b.peerPort := by
  have htls : a.tls = b.tls ↔ u.url.scheme = v.url.scheme := by
    rw [ha.tls, hb.tls]
    rcases ha.web.scheme with hu | hu <;> rcases hb.web.scheme with hv | hv <;>
      rw [hu, hv] <;> decide
  constructor
  · rintro rfl
    exact ⟨⟨htls.mp rfl, ha.host.symm.trans hb.host, ha.rpcPort.symm.trans hb.rpcPort,
      ha.path.symm.trans hb.path⟩, rfl, rfl⟩
  · rintro ⟨⟨hscheme, hhost, hport, hpath⟩, hmetrics, hpeer⟩
    rw [← ha.host, ← hb.host] at hhost
    rw [← ha.rpcPort, ← hb.rpcPort] at hport
    rw [← ha.path, ← hb.path] at hpath
    have htls := htls.mpr hscheme
    cases a
    cases b
    simp_all

theorem key_eq_iff (ha : a.MadeOf names u) (hb : b.MadeOf names v) : a.key = b.key ↔
    u.SamePlace v ∧ a.metricsPort = b.metricsPort ∧ a.peerPort = b.peerPort :=
  ⟨fun h => (eq_iff ha hb).mp (ha.wellFormed.eq_of_key_eq hb.wellFormed h),
    fun h => congrArg key ((eq_iff ha hb).mpr h)⟩

end Address.MadeOf

/-! ## Reading an address from its own URL -/

theorem isBlank_of_unescaped {c : Char} (h : escapedInPath c = false) : isBlank c = false := by
  have hlow := (staysInPath h).2.2
  simp only [escapedInPath, isControlOrForeign, Bool.or_eq_false_iff, decide_eq_false_iff_not] at h
  simp [isBlank, blankRanges]
  omega

theorem isBlank_of_digit {c : Char} (h : isDigit c = true) : isBlank c = false :=
  forall_ascii (p := fun c => isDigit c = true → isBlank c = false) (by decide)
    (ascii_of_digit (.inl h)) h

/-- A text with a scheme in front and no blank at its end is read as a URL, all of it. -/
theorem isUrlText_web {scheme : String} (h : scheme = "http" ∨ scheme = "https") {rest : List Char}
    (hrest : rest ≠ []) (hlast : ∀ c ∈ rest.getLast?, isBlank c = false) :
    trim (scheme.toList ++ "://".toList ++ rest) = scheme.toList ++ "://".toList ++ rest ∧
      IsUrlText (String.ofList (scheme.toList ++ "://".toList ++ rest)) := by
  have htrim : trim (scheme.toList ++ "://".toList ++ rest) = scheme.toList ++ "://".toList ++ rest := by
    refine trim_eq_self (fun c hc => ?_) fun c hc => ?_
    · rcases h with rfl | rfl <;> cases hc <;> rfl
    · rw [List.getLast?_append_of_ne_nil _ hrest] at hc
      exact hlast c hc
  refine ⟨htrim, ?_, ?_⟩
  · rw [String.toList_ofList, htrim]
    rcases h with rfl | rfl <;> exact nofun
  · rw [String.toList_ofList, htrim]
    rcases h with rfl | rfl <;> rfl

/-- The URL of an address ends with its port or its path, and neither ends with a blank. -/
theorem Address.MadeOf.isUrlText {a : Address} {u : WholeUrl} (h : a.MadeOf names u) {target : String}
    (htarget : a.rpcUrl = .ok target) : trim target.toList = target.toList ∧ IsUrlText target := by
  obtain ⟨port, -, hurl⟩ := h.rpcUrl_eq
  obtain rfl := Except.ok.inj (htarget.symm.trans hurl)
  rw [String.toList_ofList]
  refine isUrlText_web h.web.scheme (by simp) fun c hc => ?_
  by_cases hpath : trimSlashes u.url.path.toList = []
  · rw [hpath, List.append_nil, List.getLast?_append_of_ne_nil _ (List.cons_ne_nil _ _),
      List.getLast?_cons_of_ne_nil (decimal_ne_nil port)] at hc
    exact isBlank_of_digit (isDigit_of_mem_decimal (List.mem_of_mem_getLast? hc))
  · rw [List.getLast?_append_of_ne_nil _ hpath] at hc
    have hmem := (List.rdropWhile_prefix _ _).subset (List.mem_of_mem_getLast? hc)
    exact isBlank_of_unescaped (mem_settledPath h.web.path hmem).1

/-- From its own URL an address is read as it is, but for the ports that are not in URLs. -/
theorem Address.MadeOf.reread (hnames : names.Lawful) {a : Address} {u : WholeUrl} (h : a.MadeOf names u)
    (hmetrics : a.metricsPort = none) (hpeer : a.peerPort = none) : ∃ target, a.rpcUrl = .ok target ∧
      IsUrlText target ∧ Address.parse (readUrl names) target = .ok a := by
  obtain ⟨target, polled, htarget, hread, hplace, -⟩ := h.rpcUrl_read
  obtain ⟨htrim, hisUrl⟩ := h.isUrlText htarget
  have hscheme : polled.url.scheme = "http" ∨ polled.url.scheme = "https" := hplace.1 ▸ h.web.scheme
  have hurl : readUrl names (trim target.toList) = .ok polled.url := by
    rw [htrim]
    exact readUrl_of_readWholeUrl hread
  have hparsed := parse_of_url hisUrl hurl hscheme
  have hagain := of_readFrom hnames ⟨hisUrl, hparsed, by rwa [htrim]⟩
  refine ⟨target, htarget, hisUrl, ?_⟩
  rw [hparsed, (hagain.eq_iff h).mpr ⟨hplace, hmetrics.symm, hpeer.symm⟩]

theorem Address.exists_readFrom {a : Address} {raw : String} (hraw : IsUrlText raw)
    (h : Address.parse (readUrl names) raw = .ok a) : ∃ u, a.ReadFrom names raw u := by
  obtain ⟨url, hurl, -, -⟩ := Address.parse_url hraw h
  obtain ⟨u, hread, -⟩ := readWholeUrl_of_readUrl hurl
  exact ⟨u, hraw, h, hread⟩

/-- An address that was read from a URL has no ports but the one for calls. It has a URL, and from
that URL the same address is read again. The URL stands for the address: no other one has it. -/
theorem url_address_is_read_back (hnames : names.Lawful) {raw : String} {a : Address}
    (hraw : IsUrlText raw) (h : Address.parse (readUrl names) raw = .ok a) :
    a.metricsPort = none ∧ a.peerPort = none ∧ ∃ target, a.rpcUrl = .ok target ∧ IsUrlText target ∧
      Address.parse (readUrl names) target = .ok a ∧
      ∀ raw' a', IsUrlText raw' → Address.parse (readUrl names) raw' = .ok a' →
        (a'.rpcUrl = .ok target ↔ a' = a) := by
  obtain ⟨u, hfrom⟩ := Address.exists_readFrom hraw h
  obtain ⟨hmetrics, hpeer⟩ := hfrom.noOtherPorts
  obtain ⟨target, htarget, hisUrl, hparsed⟩ :=
    (Address.MadeOf.of_readFrom hnames hfrom).reread hnames hmetrics hpeer
  refine ⟨hmetrics, hpeer, target, htarget, hisUrl, hparsed, fun raw' a' hraw' h' => ⟨fun hsame => ?_, ?_⟩⟩
  · -- what was read from the shared URL is both of them
    obtain ⟨u', hfrom'⟩ := Address.exists_readFrom hraw' h'
    obtain ⟨hmetrics', hpeer'⟩ := hfrom'.noOtherPorts
    obtain ⟨target', htarget', -, hparsed'⟩ :=
      (Address.MadeOf.of_readFrom hnames hfrom').reread hnames hmetrics' hpeer'
    obtain rfl := Except.ok.inj (hsame.symm.trans htarget')
    exact Except.ok.inj (hparsed'.symm.trans hparsed)
  · rintro rfl
    exact htarget

/-- A number for a host, a mapped IPv6 literal, dots, escapes and slashes are all settled at once. -/
theorem awkward_urls_are_settled : asciiNames.Lawful ∧
    (∃ a, Address.parse (readUrl asciiNames) "HTTP://ops@0x7F.1/a/./b//%2E%2e/c d//?x#y" = .ok a ∧
      a.rpcUrl = .ok "http://127.0.0.1:80/a/b/c%20d" ∧
      Address.parse (readUrl asciiNames) "http://127.0.0.1:80/a/b/c%20d" = .ok a) ∧
    ∃ a, Address.parse (readUrl asciiNames) "https://[0:0::FFFF:1.2.3.4]:00443//a/./b/..//%7e///" = .ok a ∧
      a.rpcUrl = .ok "https://[::ffff:102:304]:443//a//%7e" ∧
      Address.parse (readUrl asciiNames) "https://[::ffff:102:304]:443//a//%7e" = .ok a := by
  refine ⟨asciiNames_lawful, ?_, ?_⟩
  · have hread : Address.parse (readUrl asciiNames) "HTTP://ops@0x7F.1/a/./b//%2E%2e/c d//?x#y" =
        .ok ⟨"127.0.0.1", some 80, none, none, some "/a/b/c%20d", false⟩ := by decide +kernel
    obtain ⟨-, -, target, htarget, -, hparsed, -⟩ :=
      url_address_is_read_back asciiNames_lawful (by decide) hread
    obtain rfl : "http://127.0.0.1:80/a/b/c%20d" = target := Except.ok.inj htarget
    exact ⟨_, hread, htarget, hparsed⟩
  · have hread : Address.parse (readUrl asciiNames) "https://[0:0::FFFF:1.2.3.4]:00443//a/./b/..//%7e///" =
        .ok ⟨"::ffff:102:304", some 443, none, none, some "//a//%7e", true⟩ := by decide +kernel
    obtain ⟨-, -, target, htarget, -, hparsed, -⟩ :=
      url_address_is_read_back asciiNames_lawful (by decide) hread
    obtain rfl : "https://[::ffff:102:304]:443//a//%7e" = target := Except.ok.inj htarget
    exact ⟨_, hread, htarget, hparsed⟩

end FleetHealth.Net
