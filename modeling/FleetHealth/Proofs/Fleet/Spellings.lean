import FleetHealth.Proofs.Fleet.PolledUrls
import FleetHealth.Proofs.Net.BareForms

/-! # Spellings of one IP address

An IP address has one text in URLs, but elsewhere its literal is kept as it is written, only in
lower case. So endpoints that are the same but for the texts of their IP address have one key
exactly if these texts are the same. For IPv4 they always are, for IPv6 they need not be.
-/
namespace FleetHealth

open Fleet Net Number Text

variable {names : HostNames}

namespace Net

/-! ## Where the text of a host is from -/

/-- The text that is kept of an IP address: its canonical one of a URL, and of any other text
the literal in it, in lower case. -/
inductive Spelling (raw : String) (ip : IpAddress) : List Char → Prop
  | canonical (url : IsUrlText raw) : Spelling raw ip ip.hostText
  | written {literal : List Char} (other : ¬ IsUrlText raw) (part : literal <:+: trim raw.toList)
      (read : readIp? literal = some ip) : Spelling raw ip (lower literal)

/-- The host of a URL is its canonical text if it is an IP literal. -/
theorem host_of_url {raw : String} {a : Address} {ip : IpAddress} (hraw : IsUrlText raw)
    (h : Address.parse (readUrl names) raw = .ok a) (hip : a.ip? = some ip) :
    a.host.toList = ip.hostText := by
  obtain ⟨url, hurl, hscheme, rfl⟩ := Address.parse_url hraw h
  obtain ⟨rest, host, port, -, hauthority, hsame⟩ := readUrl_web hurl hscheme
  obtain ⟨text, hhost, -⟩ := readAuthority_ok hauthority
  rw [hsame] at hip ⊢
  exact specialHost_hostText hhost hip

theorem BareCut.isInfix {s host : List Char} {port : Option Nat} (h : BareCut s host port) :
    host <:+: s := by
  have hbracket : ∀ host rest : List Char, host <:+: '[' :: (host ++ ']' :: rest) := fun host rest =>
    ⟨['['], ']' :: rest, by simp⟩
  cases h with
  | literal => exact List.infix_refl _
  | name => exact (List.prefix_append _ _).isInfix
  | bracketed | ignored => exact hbracket _ _

/-- The host of any other text is a part of the text in lower case. -/
theorem host_of_other {urls : List Char → Except UrlError Url} {raw : String} {a : Address}
    (hraw : ¬ IsUrlText raw) (h : Address.parse urls raw = .ok a) :
    ∃ part, part <:+: trim raw.toList ∧ a.host = String.ofList (lower part) := by
  unfold Address.parse at h
  dsimp only at h
  split at h
  · cases h
  · split at h
    · obtain ⟨piece, hpiece, hhost, -⟩ := readMultiaddr_ok h
      exact ⟨piece, infix_of_mem_splitAt hpiece, hhost⟩
    · next hslash =>
      split at h
      · next hmark => exact absurd ⟨hslash, hmark⟩ hraw
      · obtain ⟨host, port, hcut, -, -, rfl⟩ := readBare_ok_iff.mp h
        exact ⟨host, hcut.isInfix, rfl⟩

theorem Spelling.of_parsed {raw : String} {a : Address} {ip : IpAddress}
    (h : Address.parse (readUrl names) raw = .ok a) (hip : a.ip? = some ip) :
    Spelling raw ip a.host.toList := by
  by_cases hraw : IsUrlText raw
  · rw [host_of_url hraw h hip]
    exact .canonical hraw
  · obtain ⟨part, hpart, hhost⟩ := host_of_other hraw h
    rw [Address.ip?, hhost, String.toList_ofList, readIp?_lower] at hip
    rw [hhost, String.toList_ofList]
    exact .written hraw hpart hip

/-! ## Literals as bare addresses -/

theorem trim_of_readIp? {literal : List Char} {ip : IpAddress} (h : readIp? literal = some ip) :
    trim literal = literal := by
  have hblank := fun c hc => (readIp?_inLiteral h c hc).plain.1
  exact trim_eq_self (fun c hc => hblank c (List.mem_of_mem_head? hc))
    fun c hc => hblank c (List.mem_of_mem_getLast? hc)

theorem parse_literal (urls : List Char → Except UrlError Url) {literal : List Char}
    {ip : IpAddress} (h : readIp? literal = some ip) :
    Address.parse urls (String.ofList literal) = .ok (.bare literal none) := by
  have hslash : '/' ∉ literal := notMem_of_readIp? h (by decide)
  have htrim : trim (String.ofList literal).toList = literal := by
    rw [String.toList_ofList, trim_of_readIp? h]
  rw [Address.parse_bare, htrim, readBare_ok_iff]
  · exact ⟨literal, none, .literal h, ne_nil_of_readIp? h, hslash, rfl⟩
  · rw [htrim]
    exact fun hhead => hslash (List.mem_of_mem_head? hhead)
  · rw [htrim]
    exact fun hmark => hslash (hmark.subset (by decide))

theorem Address.ip?_bare (literal : List Char) (port : Option Nat) :
    (Address.bare literal port).ip? = readIp? literal := by
  rw [ip?, bare, String.toList_ofList, readIp?_lower]

/-! ## One endpoint -/

/-- Addresses that differ in nothing but the text of their IP address. -/
structure Address.SameEndpoint (ip : IpAddress) (a b : Address) : Prop where
  left : a.ip? = some ip
  right : b.ip? = some ip
  rpcPort : a.rpcPort = b.rpcPort
  metricsPort : a.metricsPort = b.metricsPort
  peerPort : a.peerPort = b.peerPort
  path : a.path = b.path
  tls : a.tls = b.tls

theorem Address.SameEndpoint.eq_iff {ip : IpAddress} {a b : Address} (h : a.SameEndpoint ip b) :
    a = b ↔ a.host = b.host := by
  obtain ⟨-, -, hrpc, hmetrics, hpeer, hpath, htls⟩ := h
  cases a
  cases b
  simp_all

theorem Address.SameEndpoint.key_eq_iff {ip : IpAddress} {a b : Address} (h : a.SameEndpoint ip b)
    (ha : a.WellFormed) (hb : b.WellFormed) : a.key = b.key ↔ a.host = b.host :=
  ⟨fun hkey => h.eq_iff.mp (ha.eq_of_key_eq hb hkey), fun hhost => congrArg key (h.eq_iff.mpr hhost)⟩

end Net

/-! ## Main result -/

namespace Fleet

/-- A later address is left out exactly if it has the key of the one before it. -/
theorem distinctAddresses_pair (a b : Address) : distinctAddresses [a, b] = [a] ↔ a.key = b.key := by
  have hlast := distinctAddresses_concat_iff [a] b
  simpa [distinctAddresses, freshAddresses] using hlast

/-- All spellings of the address give accepted texts the same key. -/
def MeetInKey (names : HostNames) (ip : IpAddress) : Prop :=
  ∀ raw raw' a b, Address.parse (readUrl names) raw = .ok a →
    Address.parse (readUrl names) raw' = .ok b → a.SameEndpoint ip b → a.key = b.key

theorem meetInKey_of_v4 {ip : IpAddress} (h : ip.isV6 = false) : MeetInKey names ip := by
  intro raw raw' a b _ _ hsame
  have hhost : a.host.toList = b.host.toList := by
    rw [eq_hostText_of_v4 hsame.left h, eq_hostText_of_v4 hsame.right h]
  exact congrArg Address.key (hsame.eq_iff.mpr (String.toList_inj.mp hhost))

/-- The canonical text and the one with dots are two bare addresses. -/
theorem not_meetInKey_of_v6 {literal : List Char} {groups : List Nat}
    (h : readIp? literal = some (.v6 groups)) : ¬ MeetInKey names (.v6 groups) := by
  intro hmeet
  obtain ⟨_, _, _, _, hv4, -⟩ | ⟨_, heq, hgroups⟩ := readIp?_cases h
  · cases hv4
  · cases heq
    obtain ⟨hlength, hsmall⟩ := readV6Groups?_shape hgroups
    have hcanonical := readIp?_groupsText hlength hsmall
    obtain ⟨other, hother, hne⟩ := exists_other_spelling hlength hsmall
    have hsame : (Address.bare other none).SameEndpoint (.v6 groups) (.bare (groupsText groups) none) :=
      ⟨by rw [Address.ip?_bare, hother], by rw [Address.ip?_bare, hcanonical], rfl, rfl, rfl, rfl, rfl⟩
    have ha := parse_literal (readUrl names) hother
    have hb := parse_literal (readUrl names) hcanonical
    have hshaped := readUrl_shaped names
    have hkey := hmeet _ _ _ _ ha hb hsame
    rw [hsame.key_eq_iff (Address.parse_wellFormed hshaped ha)
      (Address.parse_wellFormed hshaped hb)] at hkey
    exact hne (String.ofList_inj.mp hkey)

/-- Of addresses that are the same but for the text of their IP address, both keep a spelling of
it, and they have one key, and the later one is left out, exactly if it is the same spelling; so
if both were read from URLs. All spellings of an IP address meet in one key exactly if it is an
IPv4 address. -/
theorem ip_endpoints_meet_in_spelling (names : HostNames) :
    (∀ raw raw' (a b : Address) ip, Address.parse (readUrl names) raw = .ok a →
      Address.parse (readUrl names) raw' = .ok b → a.SameEndpoint ip b →
        Spelling raw ip a.host.toList ∧ Spelling raw' ip b.host.toList ∧
        (a.key = b.key ↔ a.host = b.host) ∧ (distinctAddresses [a, b] = [a] ↔ a.host = b.host) ∧
        (IsUrlText raw → IsUrlText raw' → a.key = b.key)) ∧
    ∀ literal ip, readIp? literal = some ip → (MeetInKey names ip ↔ ip.isV6 = false) := by
  have hshaped := readUrl_shaped names
  refine ⟨fun raw raw' a b ip ha hb hsame => ?_, fun literal ip hip => ⟨fun hmeet => ?_, meetInKey_of_v4⟩⟩
  · have hkey := hsame.key_eq_iff (Address.parse_wellFormed hshaped ha)
      (Address.parse_wellFormed hshaped hb)
    refine ⟨.of_parsed ha hsame.left, .of_parsed hb hsame.right, hkey,
      (distinctAddresses_pair a b).trans hkey, fun hraw hraw' => hkey.mpr ?_⟩
    refine String.toList_inj.mp ?_
    rw [host_of_url hraw ha hsame.left, host_of_url hraw' hb hsame.right]
  · cases ip with
    | v4 => rfl
    | v6 groups => exact absurd hmeet (not_meetInKey_of_v6 hip)

def loopback : IpAddress := .v6 [0, 0, 0, 0, 0, 0, 0, 1]

/-- In URLs its spellings meet. -/
theorem loopback_urls_meet :
    (∃ a b, Address.parse (readUrl asciiNames) "http://[::1]:9000" = .ok a ∧
      Address.parse (readUrl asciiNames) "http://[0:0:0:0:0:0:0:1]:9000/" = .ok b ∧ a.SameEndpoint loopback b ∧
      a.key = b.key ∧ distinctAddresses [a, b] = [a]) ∧
    readIp? "::1".toList = some loopback ∧ ¬ MeetInKey asciiNames loopback := by
  obtain ⟨hpairs, hmeet⟩ := ip_endpoints_meet_in_spelling asciiNames
  have hread : readIp? "::1".toList = some loopback := by decide
  refine ⟨?_, hread, fun h => ?_⟩
  · have ha : Address.parse (readUrl asciiNames) "http://[::1]:9000" = .ok (.bare "::1".toList (some 9000)) := rfl
    have hb : Address.parse (readUrl asciiNames) "http://[0:0:0:0:0:0:0:1]:9000/" = .ok (.bare "::1".toList (some 9000)) := rfl
    have hsame : (Address.bare "::1".toList (some 9000)).SameEndpoint loopback
        (.bare "::1".toList (some 9000)) := ⟨hread, hread, rfl, rfl, rfl, rfl, rfl⟩
    obtain ⟨-, -, -, hdistinct, hurls⟩ := hpairs _ _ _ _ _ ha hb hsame
    exact ⟨_, _, ha, hb, hsame, hurls (by decide) (by decide), hdistinct.mpr rfl⟩
  · have hv4 : loopback.isV6 = false := (hmeet _ _ hread).mp h
    cases hv4

/-- Written bare, it is one endpoint with two keys, and it is polled under both. -/
theorem loopback_is_polled_twice :
    ∃ a b, Address.parse (readUrl asciiNames) "[::1]:9000" = .ok a ∧ Address.parse (readUrl asciiNames) "[0:0:0:0:0:0:0:1]:9000" = .ok b ∧
      a.SameEndpoint loopback b ∧ a.key ≠ b.key ∧ distinctAddresses [a, b] = [a, b] := by
  have hsame : (Address.bare "::1".toList (some 9000)).SameEndpoint loopback
      (.bare "0:0:0:0:0:0:0:1".toList (some 9000)) :=
    ⟨by decide, by decide, rfl, rfl, rfl, rfl, rfl⟩
  refine ⟨_, _, rfl, rfl, hsame, by decide, by decide⟩

end Fleet

end FleetHealth
