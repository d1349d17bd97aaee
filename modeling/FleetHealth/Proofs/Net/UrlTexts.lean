import FleetHealth.Proofs.Net.HostTexts
import FleetHealth.Proofs.Net.PathTexts

/-! # URLs read back

A URL written from its scheme, host, port and path is read as these again. It has neither
credentials nor a query, for it has no at sign and no question mark.
-/
namespace FleetHealth.Net

open Text Number

variable {names : HostNames}

/-! ## Pieces of a URL -/

theorem stripUrl_of_visible {s : List Char} (h : ∀ c ∈ s, 0x20 < c.toNat) : stripUrl s = s := by
  have hkept : ∀ {t : List Char}, (∀ c ∈ t, 0x20 < c.toNat) →
      t.dropWhile (fun c => decide (c.toNat ≤ 0x20)) = t := by
    intro t ht
    cases t with
    | nil => rfl
    | cons c t =>
      have hc := ht c List.mem_cons_self
      rw [List.dropWhile_cons_of_neg (by simpa using hc)]
  rw [stripUrl, hkept h, hkept (t := s.reverse) (by simpa using h), List.reverse_reverse,
    List.filter_eq_self]
  intro c hc
  have hlow := h c hc
  have hne : ∀ d : Char, d.toNat ≤ 0x20 → c ≠ d := by
    rintro d hd rfl
    omega
  simp [hne '\t' (by decide), hne '\n' (by decide), hne '\r' (by decide)]

theorem staysInAuthority_of_digit {c : Char} (h : isDigit c = true) : staysInAuthority c = true :=
  (staysInAuthority_of_domain (forbiddenInDomain_of_digit (.inl h))).1

theorem endsAuthority_of_stays {c : Char} (h : staysInAuthority c = true) :
    endsAuthority .special c = false := by
  simp only [staysInAuthority, List.mem_cons, List.not_mem_nil, or_false, not_or, Bool.and_eq_true,
    decide_eq_true_eq] at h
  obtain ⟨-, hslash, hquestion, hhash, hback, -⟩ := h
  simp [endsAuthority, hslash, hquestion, hhash, hback]

theorem cutScheme_web {scheme : String} (h : scheme = "http" ∨ scheme = "https") (rest : List Char) :
    cutScheme (scheme.toList ++ "://".toList ++ rest) = some (scheme.toList, '/' :: '/' :: rest) := by
  rcases h with rfl | rfl
  · rfl
  · rfl

/-- The authority of a URL ends where its path begins. -/
theorem cutAuthority_text {authority path : List Char} (hnonempty : authority ≠ [])
    (hstays : ∀ c ∈ authority, staysInAuthority c = true) (hpath : path = [] ∨ ∃ rest, path = '/' :: rest) :
    cutAuthority ('/' :: '/' :: (authority ++ path)) = (authority, path) := by
  have hends : ∀ c ∈ authority, (!endsAuthority .special c) = true := fun c hc => by
    simp [endsAuthority_of_stays (hstays c hc)]
  have hbody : ('/' :: '/' :: (authority ++ path)).dropWhile isSlash = authority ++ path := by
    obtain ⟨c, rest, rfl⟩ := List.exists_cons_of_ne_nil hnonempty
    have hc := endsAuthority_of_stays (hstays c List.mem_cons_self)
    have hslash : isSlash c = false := by
      simp only [endsAuthority, Bool.or_eq_false_iff] at hc
      simpa [isSlash] using And.intro hc.1.1.1 hc.2
    change (c :: (rest ++ path)).dropWhile isSlash = c :: (rest ++ path)
    rw [List.dropWhile_cons_of_neg (by simpa using hslash)]
  rw [cutAuthority, hbody, List.takeWhile_append_of_pos hends, List.dropWhile_append_of_pos hends]
  rcases hpath with rfl | ⟨rest, rfl⟩
  · simp
  · simp [List.takeWhile, List.dropWhile, endsAuthority]

theorem readUrlPort_decimal {port : Nat} (h : port ≤ portMax) :
    readUrlPort (decimal port) = .ok (some port) := by
  have hdigits : (decimal port).takeWhile (· ≠ '\\') = decimal port := by
    rw [List.takeWhile_eq_self_iff]
    intro c hc
    have hdigit := isDigit_of_mem_decimal hc
    have hne : c ≠ '\\' := by
      rintro rfl
      exact absurd hdigit (by decide)
    simpa using hne
  unfold readUrlPort
  rw [hdigits]
  split
  · next hnil => exact absurd hnil (decimal_ne_nil port)
  · rw [readDigits?_decimal]
    simp [Option.filter, h]

/-! ## A host and a port -/

theorem HostText.staysWithPort {text : List Char} {host : String} (h : HostText names text host)
    (port : Nat) : ∀ c ∈ text ++ ':' :: decimal port, staysInAuthority c = true := by
  intro c hc
  rcases List.mem_append.mp hc with hc | hc
  · exact h.stays c hc
  · rcases List.mem_cons.mp hc with rfl | hc
    · decide
    · exact staysInAuthority_of_digit (isDigit_of_mem_decimal hc)

theorem HostText.noCredentials {text : List Char} {host : String} (h : HostText names text host)
    (port : Nat) : cutLast '@' (text ++ ':' :: decimal port) = none :=
  cutLast_of_notMem fun hmem => absurd (h.staysWithPort port '@' hmem) (by decide)

theorem HostText.readAuthority_port {text : List Char} {host : String} (h : HostText names text host)
    {port : Nat} (hport : port ≤ portMax) (more : Bool) :
    readAuthority names .special (text ++ ':' :: decimal port) more = .ok (host, some port) := by
  unfold readAuthority
  rw [h.noCredentials port]
  dsimp only
  unfold hostAndPort
  simp only [h.cut, h.reads, h.nonempty, h.named, readUrlPort_decimal hport, bind, Except.bind, pure,
    Except.pure, reduceCtorEq, and_false, false_and, if_false]

/-- A path that stays whole in a URL: there is none, or it begins with a slash, and no character in
it is escaped or ends it. -/
def StaysPath (path : List Char) : Prop :=
  (path = [] ∨ ∃ rest, path = '/' :: rest) ∧ ∀ c ∈ path, escapedInPath c = false

/-- Without its slashes at the end, a path is empty or begins with one as before. -/
theorem staysPath_trimSlashes {path : List Char} (h : SettledPath path) : StaysPath (trimSlashes path) :=
  ⟨(trimSlashes_settled h).imp_right fun ⟨_, _, _, heq⟩ => ⟨_, heq⟩,
    fun _ hc => (mem_settledPath h ((List.rdropWhile_prefix _ _).subset hc)).1⟩

theorem queryOf_of_plain {path : List Char} (h : ∀ c ∈ path, escapedInPath c = false) :
    queryOf path = none := by
  have hnone : path.dropWhile (fun c => c ≠ '?' && c ≠ '#') = [] := by
    rw [List.dropWhile_eq_nil_iff]
    intro c hc
    obtain ⟨hquestion, hhash, -⟩ := staysInPath (h c hc)
    simp [hquestion, hhash]
  rw [queryOf, hnone]

theorem HostText.readWholeUrl {text : List Char} {host : String} (h : HostText names text host)
    {scheme : String} (hscheme : scheme = "http" ∨ scheme = "https") {port : Nat} (hport : port ≤ portMax)
    {path : List Char} (hpath : StaysPath path) :
    readWholeUrl names (scheme.toList ++ "://".toList ++ (text ++ ':' :: decimal port ++ path)) =
      .ok ⟨⟨scheme, host, some port, String.ofList (specialPath path)⟩, [], [], none⟩ := by
  have hfront : ∀ c ∈ scheme.toList ++ "://".toList, 0x20 < c.toNat := by
    have hall : (scheme.toList ++ "://".toList).all (fun c => 0x20 < c.toNat) = true := by
      rcases hscheme with rfl | rfl <;> rfl
    exact fun c hc => of_decide_eq_true (List.all_eq_true.mp hall c hc)
  have hvisible : ∀ c ∈ scheme.toList ++ "://".toList ++ (text ++ ':' :: decimal port ++ path),
      0x20 < c.toNat := by
    intro c hc
    rcases List.mem_append.mp hc with hc | hc
    · exact hfront c hc
    · rcases List.mem_append.mp hc with hc | hc
      · have hauthority := h.staysWithPort port c hc
        rw [staysInAuthority, Bool.and_eq_true, decide_eq_true_eq] at hauthority
        exact hauthority.1
      · exact (staysInPath (hpath.2 c hc)).2.2
  have hcut := cutAuthority_text (by simp) (h.staysWithPort port) hpath.1
  have hspecial : schemeClass scheme = .special := by
    rcases hscheme with rfl | rfl <;> decide
  have hurl : readUrl names (scheme.toList ++ "://".toList ++ (text ++ ':' :: decimal port ++ path)) =
      .ok ⟨scheme, host, some port, String.ofList (specialPath path)⟩ := by
    unfold readUrl
    rw [stripUrl_of_visible hvisible, cutScheme_web hscheme]
    simp only [String.ofList_toList, hspecial, readSpecial, hcut, h.readAuthority_port hport]
    rfl
  unfold Net.readWholeUrl
  rw [hurl, stripUrl_of_visible hvisible, cutScheme_web hscheme]
  simp only [Option.map_some, Option.getD_some, hcut, credentialsOf, h.noCredentials port,
    queryOf_of_plain hpath.2]
  rfl

/-! ## URLs that were read -/

/-- What is known of a URL that an address was made of. -/
structure WebUrl (names : HostNames) (url : Url) : Prop where
  scheme : url.scheme = "http" ∨ url.scheme = "https"
  host : HostText names (hostInUrl url.host) url.host
  port : ∃ port ≤ portMax, url.port = some port
  path : SettledPath url.path.toList

theorem WebUrl.of_read (hnames : names.Lawful) {s : List Char} {url : Url}
    (h : readUrl names s = .ok url) (hscheme : url.scheme = "http" ∨ url.scheme = "https") :
    WebUrl names url := by
  obtain ⟨rest, host, port, -, hauthority, hurl⟩ := readUrl_web h hscheme
  obtain ⟨text, hhost, hport⟩ := readAuthority_ok hauthority
  rw [hurl]
  refine ⟨hscheme, hostText_of_read hnames hhost, ?_, ?_⟩
  · cases port with
    | some port => exact ⟨port, hport port rfl, rfl⟩
    | none =>
      rcases hscheme with hscheme | hscheme
      · exact ⟨80, by decide, by simp [hscheme, defaultPort?]⟩
      · exact ⟨443, by decide, by simp [hscheme, defaultPort?]⟩
  · simpa using specialPath_settled _

/-- Written without the slashes at the end of its path, a URL is read as itself up to these. -/
theorem WebUrl.readWholeUrl {url : Url} (h : WebUrl names url) {port : Nat} (hport : url.port = some port) :
    ∃ path, readWholeUrl names (url.scheme.toList ++ "://".toList ++
        (hostInUrl url.host ++ ':' :: decimal port ++ trimSlashes url.path.toList)) =
          .ok ⟨{ url with path }, [], [], none⟩ ∧ trimPath path = trimPath url.path := by
  have hsmall : port ≤ portMax := by
    obtain ⟨known, hknown, heq⟩ := h.port
    rw [hport] at heq
    exact Option.some.inj heq ▸ hknown
  refine ⟨String.ofList (specialPath (trimSlashes url.path.toList)), ?_, ?_⟩
  · rw [h.host.readWholeUrl h.scheme hsmall (staysPath_trimSlashes h.path), ← hport]
  · rw [trimPath_reread h.path, String.ofList_toList]

theorem WebUrl.slash_notMem_host {url : Url} (h : WebUrl names url) : '/' ∉ url.host.toList := by
  intro hmem
  have htext : '/' ∈ hostInUrl url.host := by
    unfold hostInUrl
    split
    · split
      · simp [hmem]
      · exact hmem
    · exact hmem
  exact absurd (h.host.stays '/' htext) (by decide)

end FleetHealth.Net
