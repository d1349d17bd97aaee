import FleetHealth.Net.AddressReader
import FleetHealth.Proofs.Net.AddressKey
import FleetHealth.Proofs.Net.HostNames
import FleetHealth.Proofs.Text.Pieces

/-! # The shape of configured addresses

In whichever of the three ways an address is written, its host has no slash and its path
begins with one, and so its key tells it apart from every other address.
-/
namespace FleetHealth.Net

open Text Number

theorem slash_notMem_lower {s : List Char} (h : '/' ∉ s) : '/' ∉ lower s := by
  intro hmem
  obtain ⟨c, hc, hlower⟩ := List.mem_map.mp hmem
  rw [toLower_eq_mark (by decide)] at hlower
  exact h (hlower ▸ hc)

/-! ## Texts of IP addresses -/

theorem notMem_toDigits {c : Char} {base : Nat} (hbase : 1 < base)
    (h : ∀ d < base, d.digitChar ≠ c) (n : Nat) : c ∉ Nat.toDigits base n := by
  induction n using Nat.strongRecOn with
  | ind n ih =>
    rw [Nat.toDigits_eq_if hbase]
    split
    · next hlt => simpa using (h n hlt).symm
    · next hle =>
      have hsmaller : n / base < n := Nat.div_lt_self (by omega) hbase
      simpa [ih _ hsmaller] using (h (n % base) (Nat.mod_lt _ (by omega))).symm

theorem slash_notMem_octetsText (a b c d : Nat) : '/' ∉ octetsText a b c d := by
  have hdecimal : ∀ n, '/' ∉ decimal n := notMem_toDigits (by decide) (by decide)
  simp [octetsText, hdecimal]

theorem slash_notMem_colonSeparated (groups : List Nat) : '/' ∉ colonSeparated groups := by
  have hhex : ∀ n, '/' ∉ hexText n := notMem_toDigits (by decide) (by decide)
  induction groups with
  | nil => simp [colonSeparated]
  | cons g rest ih =>
    cases rest with
    | nil => simpa [colonSeparated] using hhex g
    | cons g' rest =>
      simp only [colonSeparated, List.map_cons] at ih ⊢
      rw [List.intercalate_cons_cons]
      simpa [hhex g] using ih

theorem slash_notMem_groupsText (groups : List Nat) : '/' ∉ groupsText groups := by
  unfold groupsText
  dsimp only
  split
  · simp [slash_notMem_colonSeparated]
  · exact slash_notMem_colonSeparated groups

/-! ## URLs -/

theorem slash_notMem_specialHost {names : HostNames} {s : List Char} {host : String}
    (h : specialHost names s = .ok host) : '/' ∉ host.toList := by
  rcases specialHost_ok h with ⟨rest, hbracketed⟩ | ⟨domain, -, hforbidden, -, hhost⟩
  · obtain ⟨groups, -, rfl⟩ := bracketedHost_ok hbracketed
    simpa using slash_notMem_groupsText groups
  · rcases hhost with ⟨a, b, c, d, -, rfl⟩ | ⟨-, rfl⟩
    · simpa using slash_notMem_octetsText a b c d
    · intro hmem
      rw [String.toList_ofList] at hmem
      exact absurd (List.any_eq_false.mp hforbidden _ hmem) (by decide)

/-- A reader of URLs to make addresses with: hosts have no slash, and a path is empty or begins
with one. -/
def UrlsShaped (urls : List Char → Except UrlError Url) : Prop :=
  ∀ s url, urls s = .ok url → (url.scheme = "http" ∨ url.scheme = "https") →
    '/' ∉ url.host.toList ∧ (url.path.toList = [] ∨ ∃ rest, url.path.toList = '/' :: rest)

/-- A URL that an address can be made of has a host without slashes and an absolute path. -/
theorem readUrl_shaped (names : HostNames) : UrlsShaped (readUrl names) := by
  intro s url hread hscheme
  obtain ⟨rest, host, port, -, hauthority, hurl⟩ := readUrl_web hread hscheme
  obtain ⟨text, hhost, -⟩ := readAuthority_ok hauthority
  rw [hurl]
  exact ⟨slash_notMem_specialHost hhost, .inr ⟨_, String.toList_ofList⟩⟩

/-- Slashes are cut off the end of a path, never off its beginning. -/
theorem trimPath_shape {path kept : String}
    (hpath : path.toList = [] ∨ ∃ rest, path.toList = '/' :: rest)
    (h : trimPath path = some kept) : ∃ rest, kept.toList = '/' :: rest := by
  have hsplit : (path.toList.reverse.dropWhile (· = '/')).reverse
      ++ (path.toList.reverse.takeWhile (· = '/')).reverse = path.toList := by
    rw [← List.reverse_append, List.takeWhile_append_dropWhile, List.reverse_reverse]
  unfold trimPath at h
  split at h
  · cases h
  · next p hne =>
    cases h
    generalize hkept : (path.toList.reverse.dropWhile (· = '/')).reverse = kept at hsplit hne ⊢
    cases kept with
    | nil => exact absurd rfl hne
    | cons c front =>
      rcases hpath with hempty | ⟨rest, hrest⟩
      · rw [hempty] at hsplit
        cases hsplit
      · rw [hrest, List.cons_append, List.cons.injEq] at hsplit
        exact ⟨front, by rw [String.toList_ofList, hsplit.1]⟩

/-! ## Multiaddrs and bare hosts -/

/-- A host that was named is the value after its protocol, in lower case; so what holds of such
values holds of the host. -/
theorem readProtocols_host {p : List Char → Prop} {raw : List Char} {tokens : List (List Char)}
    {m m' : Multiaddr} (htokens : ∀ token ∈ tokens, p (lower token))
    (hm : ∀ host, m.host = some host → p host) (h : readProtocols raw tokens m = .ok m') :
    ∀ host, m'.host = some host → p host := by
  fun_induction readProtocols raw tokens m with
  | case1 m | case5 token m =>
    cases h
    exact hm
  | case2 | case3 => cases h
  | case4 token m =>
    cases h
    exact hm
  | case6 token value rest m hprotocol ih =>
    refine ih (fun t ht => htokens t (by simp [ht])) ?_ h
    rintro host ⟨⟩
    exact htokens value (by simp)
  | case7 token value rest m hprotocol ih =>
    obtain ⟨port, -, hrest⟩ := bind_eq_ok.mp h
    exact ih port (fun t ht => htokens t (by simp [ht])) hm hrest
  | case8 token value rest m hprotocol ih | case9 token value rest m hprotocol ih =>
    exact ih (fun t ht => htokens t (List.mem_cons_of_mem _ ht)) hm h

theorem readMultiaddr_ok {raw : List Char} {a : Address} (h : readMultiaddr raw = .ok a) :
    ∃ piece ∈ splitAt '/' raw, a.host = String.ofList (lower piece) ∧ a.path = none := by
  unfold readMultiaddr at h
  rw [bind_eq_ok] at h
  obtain ⟨m, hread, h⟩ := h
  cases hhost : m.host with
  | none =>
    simp only [hhost] at h
    cases h
  | some host =>
    simp only [hhost, pure, Except.pure, Except.ok.injEq] at h
    subst h
    obtain ⟨piece, hpiece, rfl⟩ :=
      readProtocols_host (p := fun host => ∃ piece ∈ splitAt '/' raw, host = lower piece)
        (fun token htoken => ⟨token, (List.mem_filter.mp htoken).1, rfl⟩) (fun _ h => by cases h)
        hread host hhost
    exact ⟨piece, hpiece, rfl, rfl⟩

theorem readMultiaddr_wellFormed {raw : List Char} {a : Address}
    (h : readMultiaddr raw = .ok a) : a.WellFormed := by
  obtain ⟨piece, hpiece, hhost, hpath⟩ := readMultiaddr_ok h
  refine ⟨?_, by rw [hpath]; rintro _ ⟨⟩⟩
  rw [hhost, String.toList_ofList]
  exact slash_notMem_lower (notMem_splitAt hpiece)

theorem readBare_wellFormed {raw : List Char} {a : Address} (h : readBare raw = .ok a) :
    a.WellFormed := by
  unfold readBare at h
  rw [bind_eq_ok] at h
  obtain ⟨⟨host, port⟩, -, h⟩ := h
  dsimp only at h
  split at h
  · cases h
  · next hvalid =>
    cases h
    have hslash : '/' ∉ host := fun hmem => hvalid (.inr hmem)
    exact ⟨by simpa using slash_notMem_lower hslash, by rintro _ ⟨⟩⟩

/-- An address is made of a web URL's host, port and path. -/
theorem readUrlAddress_eq_ok {urls : List Char → Except UrlError Url} {raw : List Char} {a : Address} :
    readUrlAddress urls raw = .ok a ↔
      ∃ url, urls raw = .ok url ∧ (url.scheme = "http" ∨ url.scheme = "https") ∧
        a = { host := url.host, rpcPort := url.port, metricsPort := none, peerPort := none
              path := trimPath url.path, tls := url.scheme = "https" } := by
  constructor
  · intro h
    unfold readUrlAddress at h
    split at h
    · cases h
    · next url hurl =>
      split at h
      · next hscheme => exact ⟨url, hurl, hscheme, (Except.ok.inj h).symm⟩
      · cases h
  · rintro ⟨url, hurl, hscheme, rfl⟩
    simp only [readUrlAddress, hurl, hscheme, if_true]

theorem readUrlAddress_wellFormed {urls : List Char → Except UrlError Url} (hurls : UrlsShaped urls)
    {raw : List Char} {a : Address} (h : readUrlAddress urls raw = .ok a) : a.WellFormed := by
  obtain ⟨url, hurl, hscheme, rfl⟩ := readUrlAddress_eq_ok.mp h
  obtain ⟨hhost, hpath⟩ := hurls _ url hurl hscheme
  exact ⟨hhost, fun _ => trimPath_shape hpath⟩

/-! ## All three -/

theorem Address.parse_wellFormed {urls : List Char → Except UrlError Url} (hurls : UrlsShaped urls)
    {raw : String} {a : Address} (h : Address.parse urls raw = .ok a) : a.WellFormed := by
  unfold parse at h
  dsimp only at h
  split at h
  · cases h
  · split at h
    · exact readMultiaddr_wellFormed h
    · split at h
      · exact readUrlAddress_wellFormed hurls h
      · exact readBare_wellFormed h

/-- An address as it can be configured: read from a text, with ports set afterwards. -/
inductive Address.Configured (urls : List Char → Except UrlError Url) : Address → Prop
  | parsed {raw : String} {a : Address} (read : Address.parse urls raw = .ok a) :
      Configured urls a
  | rpcPort {a : Address} (before : Configured urls a) (port : Nat) :
      Configured urls (a.withRpcPort port)
  | metricsPort {a : Address} (before : Configured urls a) (port : Nat) :
      Configured urls (a.withMetricsPort port)
  | peerPort {a : Address} (before : Configured urls a) (port : Nat) :
      Configured urls (a.withPeerPort port)

theorem Address.Configured.wellFormed {urls : List Char → Except UrlError Url}
    (hurls : UrlsShaped urls) {a : Address} (h : a.Configured urls) : a.WellFormed := by
  induction h with
  | parsed read => exact parse_wellFormed hurls read
  | rpcPort _ _ ih | metricsPort _ _ ih | peerPort _ _ ih => exact ⟨ih.host, ih.path⟩

end FleetHealth.Net
