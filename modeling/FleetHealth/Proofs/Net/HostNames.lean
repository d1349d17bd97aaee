import FleetHealth.Net.Url
import FleetHealth.Proofs.Results

/-! # Names of hosts

What is known of a host that was read, and of the URL around it, whatever the names of domains.
-/
namespace FleetHealth.Net

open Text Number

/-! ## Lawful names -/

/-- What is known of the ASCII forms: they are forms of themselves where a host may have them,
and numbers with dots stay what they are. -/
structure HostNames.Lawful (names : HostNames) : Prop where
  again : ∀ {s name}, names s = some name → name.any forbiddenInDomain = false →
    names name = some name
  numbers : ∀ {s}, (∀ c ∈ s, isDigit c = true ∨ c = '.') → names s = some s

/-! ## Hosts -/

variable {names : HostNames}

/-- A host in brackets is the text of an IPv6 address. -/
theorem bracketedHost_ok {s : List Char} {host : String} (h : bracketedHost s = .ok host) :
    ∃ groups, readV6Groups? s.dropLast = some groups ∧ host = String.ofList (groupsText groups) := by
  unfold bracketedHost at h
  split at h
  · next groups hgroups =>
    cases h
    split at hgroups
    · exact ⟨groups, hgroups, rfl⟩
    · cases hgroups
  · cases h

/-- Any other host is a domain, or the text of an IPv4 address if its last part is a number. -/
theorem specialHost_ok {s : List Char} {host : String} (h : specialHost names s = .ok host) :
    (∃ rest, bracketedHost rest = .ok host) ∨
      ∃ domain, names s = some domain ∧ domain.any forbiddenInDomain = false ∧ domain ≠ [] ∧
        ((∃ a b c d, hostIpv4? domain = some (a, b, c, d) ∧ host = String.ofList (octetsText a b c d)) ∨
          endsInNumber domain = false ∧ host = String.ofList domain) := by
  unfold specialHost at h
  split at h
  · exact .inl ⟨_, h⟩
  · split at h
    · cases h
    · next domain hdomain =>
      split at h
      · cases h
      · next hforbidden =>
        split at h
        · cases h
        · next hnonempty =>
          refine .inr ⟨domain, hdomain, by simpa using hforbidden, hnonempty, ?_⟩
          split at h
          · split at h
            · next a b c d hoctets => exact .inl ⟨a, b, c, d, hoctets, (Except.ok.inj h).symm⟩
            · cases h
          · next hnumber => exact .inr ⟨by simpa using hnumber, (Except.ok.inj h).symm⟩

/-! ## URLs with a host -/

theorem readUrl_web {s : List Char} {url : Url} (h : readUrl names s = .ok url)
    (hscheme : url.scheme = "http" ∨ url.scheme = "https") :
    ∃ rest host port, cutScheme (stripUrl s) = some (url.scheme.toList, rest) ∧
      readAuthority names .special (cutAuthority rest).1 ((cutAuthority rest).2 ≠ []) =
        .ok (host, port) ∧
      url = { scheme := url.scheme, host, port := port.or (defaultPort? url.scheme)
              path := String.ofList (specialPath (cutAuthority rest).2) } := by
  have hspecial : schemeClass url.scheme = .special := by
    rcases hscheme with hscheme | hscheme <;> rw [hscheme] <;> decide
  have hblank : ∀ {x : Except UrlError Unit} {empty : Url},
      (x.map fun _ => empty) = .ok url → url = empty := by
    intro x empty h
    cases x <;> cases h
    rfl
  unfold readUrl at h
  split at h
  · cases h
  · next scheme rest hcut =>
    dsimp only at h
    split at h
    · unfold readSpecial at h
      simp only [bind_eq_ok] at h
      obtain ⟨⟨host, port⟩, hauthority, hurl⟩ := h
      cases hurl
      refine ⟨rest, host, port, by simpa using hcut, hauthority, ?_⟩
      cases port <;> rfl
    · next hclass =>
      rw [hblank h, hclass] at hspecial
      cases hspecial
    · next hclass =>
      rw [hblank h, hclass] at hspecial
      cases hspecial

theorem readUrlPort_le {s : List Char} {p : Nat} (h : readUrlPort s = .ok (some p)) : p ≤ portMax := by
  unfold readUrlPort at h
  split at h
  · cases h
  · split at h
    · next hport =>
      cases h
      simpa using (Option.filter_eq_some_iff.mp hport).2
    · cases h

theorem hostAndPort_ok {credentials : Bool} {s : List Char} {host : String} {port : Option Nat}
    (h : hostAndPort names .special credentials s = .ok (host, port)) :
    specialHost names (cutHost false s).1 = .ok host ∧ ∀ p, port = some p → p ≤ portMax := by
  unfold hostAndPort at h
  cases hspecial : specialHost names (cutHost false s).1 with
  | error e =>
    simp only [hspecial, bind, Except.bind, throw, throwThe, MonadExceptOf.throw, reduceCtorEq,
      if_false] at h
    split at h <;> cases h
  | ok name =>
    simp only [hspecial, bind, Except.bind, throw, throwThe, MonadExceptOf.throw, reduceCtorEq,
      if_false, pure, Except.pure] at h
    split at h
    · cases h
    · split at h
      · cases h
      · split at h
        · next digits htail =>
          cases hport : readUrlPort digits with
          | error e =>
            rw [hport] at h
            cases h
          | ok found =>
            rw [hport] at h
            dsimp only at h
            split at h <;> cases h
            exact ⟨rfl, fun p hp => readUrlPort_le (hp ▸ hport)⟩
        · split at h <;> cases h
          exact ⟨rfl, fun p hp => by cases hp⟩

theorem readAuthority_ok {s : List Char} {more : Bool} {host : String} {port : Option Nat}
    (h : readAuthority names .special s more = .ok (host, port)) :
    ∃ text, specialHost names text = .ok host ∧ ∀ p, port = some p → p ≤ portMax := by
  unfold readAuthority at h
  split at h
  · exact ⟨_, hostAndPort_ok h⟩
  · split at h
    · cases h
    · exact ⟨_, hostAndPort_ok h⟩
  · exact ⟨_, hostAndPort_ok h⟩

end FleetHealth.Net
