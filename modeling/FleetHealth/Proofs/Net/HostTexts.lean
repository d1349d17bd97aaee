import FleetHealth.Proofs.Net.IpTexts
import FleetHealth.Proofs.Net.WholeUrl
import FleetHealth.Proofs.Number.DecimalTexts

/-! # Hosts read back

A host that was read from a URL is a domain, the canonical text of an IPv4 address or that of
an IPv6 address, which stands in brackets in a URL. Each is read as itself again, and none
has a character that would end it early.
-/
namespace FleetHealth.Net

open Text Number

variable {names : HostNames}

def staysInAuthority (c : Char) : Bool :=
  0x20 < c.toNat && c ∉ ['/', '?', '#', '\\', '@']

/-- A text is read as that host, whatever stands before the port's colon and after it. -/
structure HostText (names : HostNames) (text : List Char) (host : String) : Prop where
  reads : specialHost names text = .ok host
  nonempty : text ≠ []
  named : host ≠ ""
  stays : ∀ c ∈ text, staysInAuthority c = true
  cut : ∀ rest, cutHost false (text ++ ':' :: rest) = (text, ':' :: rest)

/-! ## Where the host ends -/

theorem cutHost_colon (rest : List Char) : cutHost false (':' :: rest) = ([], ':' :: rest) := by
  simp [cutHost]

theorem cutHost_plain {s : List Char} (rest : List Char) (h : ∀ c ∈ s, c ∉ [':', '[', ']']) :
    cutHost false (s ++ ':' :: rest) = (s, ':' :: rest) := by
  induction s with
  | nil => exact cutHost_colon rest
  | cons c s ih =>
    have hc := h c List.mem_cons_self
    simp only [List.mem_cons, List.not_mem_nil, or_false, not_or] at hc
    have hrest := ih fun d hd => h d (List.mem_cons_of_mem c hd)
    simp [cutHost, hc, hrest]

theorem cutHost_inBrackets {s : List Char} (rest : List Char) (h : ∀ c ∈ s, c ∉ ['[', ']']) :
    cutHost true (s ++ ']' :: ':' :: rest) = (s ++ [']'], ':' :: rest) := by
  induction s with
  | nil => simp [cutHost]
  | cons c s ih =>
    have hc := h c List.mem_cons_self
    simp only [List.mem_cons, List.not_mem_nil, or_false, not_or] at hc
    have hrest := ih fun d hd => h d (List.mem_cons_of_mem c hd)
    simp [cutHost, hc, hrest]

/-! ## Domains -/

theorem staysInAuthority_of_domain {c : Char} (h : forbiddenInDomain c = false) :
    staysInAuthority c = true ∧ c ∉ [':', '[', ']'] := by
  simp only [forbiddenInDomain, forbiddenInHost, Bool.or_eq_false_iff, decide_eq_false_iff_not,
    List.mem_cons, List.not_mem_nil, or_false, not_or] at h
  obtain ⟨⟨⟨hhost, hcontrol⟩, -⟩, -⟩ := h
  have hspace : c.toNat ≠ 0x20 := fun hc => hhost.2.2.2.2.1 (Char.toNat_inj.mp hc)
  have hlow : 0x20 < c.toNat := by omega
  simp [staysInAuthority, hlow, hhost]

theorem HostText.plain {domain : List Char} {host : String}
    (hreads : specialHost names domain = .ok host) (hnonempty : domain ≠ []) (hnamed : host ≠ "")
    (h : domain.any forbiddenInDomain = false) : HostText names domain host where
  reads := hreads
  nonempty := hnonempty
  named := hnamed
  stays c hc := (staysInAuthority_of_domain (by simpa using List.any_eq_false.mp h c hc)).1
  cut rest := cutHost_plain rest fun c hc =>
    (staysInAuthority_of_domain (by simpa using List.any_eq_false.mp h c hc)).2

/-! ## IPv4 addresses -/

theorem hostNumber?_decimal (n : Nat) : hostNumber? (decimal n) = some n := by
  have hdigits := readDigits?_decimal n
  obtain rfl | ⟨d, ds, hn, hd⟩ := eq_zero_or_decimal n
  · rfl
  · rw [hn] at hdigits ⊢
    rw [hostNumber?, hdigits]
    · exact List.cons_ne_nil _ _
    · exact fun _ heq => hd (List.cons.inj heq).1
    · exact fun heq => hd (List.cons.inj heq).1
    · exact fun _ heq => hd (List.cons.inj heq).1

theorem dot_notMem_decimal (n : Nat) : '.' ∉ decimal n := notMem_toDigits (by decide) (by decide) n

theorem splitAt_octetsText (a b c d : Nat) :
    splitAt '.' (octetsText a b c d) = [decimal a, decimal b, decimal c, decimal d] := by
  rw [octetsText, splitAt_append _ (dot_notMem_decimal a), splitAt_append _ (dot_notMem_decimal b),
    splitAt_append _ (dot_notMem_decimal c), splitAt_of_notMem (dot_notMem_decimal d)]

theorem hostParts_octetsText (a b c d : Nat) :
    hostParts (octetsText a b c d) = [decimal a, decimal b, decimal c, decimal d] := by
  simp [hostParts, splitAt_octetsText, decimal_ne_nil]

theorem endsInNumber_octetsText (a b c d : Nat) : endsInNumber (octetsText a b c d) = true := by
  simp [endsInNumber, hostParts_octetsText, hostNumber?_decimal]

theorem hostIpv4?_octetsText {a b c d : Nat} (ha : a ≤ 255) (hb : b ≤ 255) (hc : c ≤ 255)
    (hd : d ≤ 255) : hostIpv4? (octetsText a b c d) = some (a, b, c, d) := by
  have hnumbers : [decimal a, decimal b, decimal c, decimal d].mapM hostNumber? = some [a, b, c, d] := by
    simp [hostNumber?_decimal]
  simp only [hostIpv4?, hostParts_octetsText, hnumbers, Option.bind_eq_bind, Option.bind_some]
  simp [List.range, List.range.loop]
  omega

theorem hostIpv4?_le {domain : List Char} {a b c d : Nat} (h : hostIpv4? domain = some (a, b, c, d)) :
    a ≤ 255 ∧ b ≤ 255 ∧ c ≤ 255 ∧ d ≤ 255 := by
  unfold hostIpv4? at h
  simp only [Option.bind_eq_bind, Option.bind_eq_some_iff] at h
  obtain ⟨numbers, -, last, hlast, h⟩ := h
  split at h
  · cases h
  · next hfits =>
    simp only [not_or, Nat.not_lt, Nat.not_le, List.any_eq_true, not_exists, not_and,
      decide_eq_true_eq] at hfits
    obtain ⟨hcount, hfront, hlast⟩ := hfits
    -- up to three octets and what the last number fills are 32 bits together
    have hsum : (List.range numbers.dropLast.length).foldl
        (fun n i => n + (numbers.dropLast[i]?.getD 0) * Nat.pow 256 (3 - i)) 0 + last < 4294967296 := by
      generalize numbers.dropLast = front at *
      match front, hcount with
      | [], _ => simpa using hlast
      | [x], _ =>
        simp [List.range, List.range.loop] at hfront hlast ⊢
        omega
      | [x, y], _ =>
        simp [List.range, List.range.loop] at hfront hlast ⊢
        omega
      | [x, y, z], _ =>
        simp [List.range, List.range.loop] at hfront hlast ⊢
        omega
    have hpow3 : Nat.pow 256 3 = 16777216 := rfl
    simp only [Option.some.injEq, Prod.mk.injEq, hpow3] at h
    obtain ⟨rfl, rfl, rfl, rfl⟩ := h
    omega

theorem mem_octetsText {a b c d : Nat} {x : Char} (h : x ∈ octetsText a b c d) :
    isDigit x = true ∨ x = '.' := by
  simp only [octetsText, List.mem_append, List.mem_cons] at h
  rcases h with h | h | h | h | h | h | h
  · exact .inl (isDigit_of_mem_decimal h)
  · exact .inr h
  · exact .inl (isDigit_of_mem_decimal h)
  · exact .inr h
  · exact .inl (isDigit_of_mem_decimal h)
  · exact .inr h
  · exact .inl (isDigit_of_mem_decimal h)

theorem colon_notMem_octetsText (a b c d : Nat) : ':' ∉ octetsText a b c d :=
  fun hmem => absurd (mem_octetsText hmem) (by decide)

theorem code_of_digit {x : Char} (h : isDigit x = true ∨ x = '.') :
    (48 ≤ x.toNat ∧ x.toNat ≤ 57) ∨ x.toNat = 46 := by
  rcases h with h | rfl
  · simp only [isDigit, Bool.and_eq_true, decide_eq_true_eq] at h
    exact .inl h
  · exact .inr rfl

theorem ascii_of_digit {c : Char} (h : isDigit c = true ∨ c = '.') : c.toNat < 128 := by
  have hcode := code_of_digit h
  omega

theorem toLower_of_digit {c : Char} (h : isDigit c = true ∨ c = '.') : c.toLower = c :=
  forall_ascii (p := fun c => isDigit c = true ∨ c = '.' → c.toLower = c) (by decide)
    (ascii_of_digit h) h

theorem lower_of_digits {s : List Char} (h : ∀ c ∈ s, isDigit c = true ∨ c = '.') : lower s = s :=
  (List.map_congr_left fun c hc => toLower_of_digit (h c hc)).trans (List.map_id s)

theorem forbiddenInDomain_of_digit {x : Char} (h : isDigit x = true ∨ x = '.') :
    forbiddenInDomain x = false :=
  forall_ascii (p := fun c => isDigit c = true ∨ c = '.' → forbiddenInDomain c = false) (by decide)
    (ascii_of_digit h) h

theorem HostText.octets (hnames : names.Lawful) {a b c d : Nat} (ha : a ≤ 255) (hb : b ≤ 255)
    (hc : c ≤ 255) (hd : d ≤ 255) :
    HostText names (octetsText a b c d) (String.ofList (octetsText a b c d)) := by
  have hnonempty : octetsText a b c d ≠ [] := by simp [octetsText]
  have hforbidden : (octetsText a b c d).any forbiddenInDomain = false :=
    List.any_eq_false.mpr fun x hx => by simp [forbiddenInDomain_of_digit (mem_octetsText hx)]
  refine .plain ?_ hnonempty (by simpa using hnonempty) hforbidden
  obtain ⟨x, text, htext⟩ := List.exists_cons_of_ne_nil hnonempty
  have hx : x ≠ '[' := by
    rintro rfl
    exact absurd (mem_octetsText (x := '[') (by rw [htext]; exact List.mem_cons_self)) (by decide)
  rw [specialHost, hnames.numbers fun x hx => mem_octetsText hx]
  · simp [hforbidden, hnonempty, endsInNumber_octetsText, hostIpv4?_octetsText ha hb hc hd]
  · rw [htext]
    exact fun _ heq => hx (List.cons.inj heq).1

/-! ## IPv6 addresses -/

theorem staysInAuthority_of_group {c : Char} (h : c = ':' ∨ ∃ d < 16, d.digitChar = c) :
    staysInAuthority c = true ∧ c ∉ ['[', ']'] := by
  have hdigits : ∀ d < 16, staysInAuthority d.digitChar = true ∧ d.digitChar ∉ ['[', ']'] := by decide
  rcases h with rfl | ⟨d, hd, rfl⟩
  · decide
  · exact hdigits d hd

theorem groupsText_ne_nil {groups : List Nat} (h : groups ≠ []) : groupsText groups ≠ [] := by
  unfold groupsText
  dsimp only
  split
  · simp
  · exact mt colonSeparated_eq_nil.mp h

/-- A literal in brackets is read as the canonical text of its address. -/
theorem HostText.bracketed {s : List Char} {groups : List Nat} (hread : readV6Groups? s = some groups)
    (h : ∀ c ∈ s, staysInAuthority c = true ∧ c ∉ ['[', ']']) :
    HostText names ('[' :: (s ++ [']'])) (String.ofList (groupsText groups)) where
  reads := by
    simp [specialHost, bracketedHost, hread]
  nonempty := List.cons_ne_nil _ _
  named := by
    have hgroups : groups ≠ [] := by
      rintro rfl
      cases (readV6Groups?_shape hread).1
    simpa using groupsText_ne_nil hgroups
  stays c hc := by
    simp only [List.mem_cons, List.mem_append, List.not_mem_nil, or_false] at hc
    rcases hc with rfl | hc | rfl
    · rfl
    · exact (h c hc).1
    · rfl
  cut rest := by
    have hrest := cutHost_inBrackets rest fun c hc => (h c hc).2
    simp [cutHost, hrest]

theorem HostText.groups {groups : List Nat} (hlength : groups.length = 8)
    (h : ∀ g ∈ groups, g < 65536) :
    HostText names ('[' :: (groupsText groups ++ [']'])) (String.ofList (groupsText groups)) :=
  .bracketed (readV6Groups?_groupsText hlength h) fun _ hc => staysInAuthority_of_group (mem_groupsText hc)

/-! ## Any host -/

def hostInUrl (host : String) : List Char :=
  match readIp? host.toList with
  | some ip => if ip.isV6 then '[' :: (host.toList ++ [']']) else host.toList
  | none => host.toList

theorem Address.urlHost_eq (a : Address) : a.urlHost = hostInUrl a.host := rfl

theorem hostInUrl_of_notMem {host : String} (h : ':' ∉ host.toList) : hostInUrl host = host.toList := by
  unfold hostInUrl
  split
  · next ip hip => rw [isV6_readIp?_of_notMem h hip]; rfl
  · rfl

theorem hostText_of_bracketed {rest : List Char} {host : String} (h : bracketedHost rest = .ok host) :
    HostText names (hostInUrl host) host := by
  obtain ⟨groups, hgroups, rfl⟩ := bracketedHost_ok h
  obtain ⟨hlength, hsmall⟩ := readV6Groups?_shape hgroups
  have htext : hostInUrl (String.ofList (groupsText groups)) = '[' :: (groupsText groups ++ [']']) := by
    simp [hostInUrl, readIp?_groupsText hlength hsmall, IpAddress.isV6]
  rw [htext]
  exact .groups hlength hsmall

theorem notMem_of_allowed {s : List Char} (h : s.any forbiddenInDomain = false) :
    ∀ c ∈ s, c ∉ [':', '[', ']'] :=
  fun c hc => (staysInAuthority_of_domain (by simpa using List.any_eq_false.mp h c hc)).2

/-- A name that is its own ASCII form is read as itself if domains may be so. -/
theorem hostText_of_name {domain : List Char} (itself : names domain = some domain) (nonempty : domain ≠ [])
    (allowed : domain.any forbiddenInDomain = false) (numberless : endsInNumber domain = false) :
    HostText names (hostInUrl (String.ofList domain)) (String.ofList domain) := by
  have hmarks := notMem_of_allowed allowed
  have hcolon : ':' ∉ domain := fun hmem => hmarks ':' hmem (by decide)
  rw [hostInUrl_of_notMem (by simpa using hcolon), String.toList_ofList]
  refine .plain ?_ nonempty (by simpa using nonempty) allowed
  rw [specialHost, itself]
  · simp [allowed, nonempty, numberless]
  · rintro rest rfl
    exact hmarks '[' List.mem_cons_self (by decide)

/-- A host that was read is read back from where it stands in a URL. -/
theorem hostText_of_read (hnames : names.Lawful) {s : List Char} {host : String}
    (h : specialHost names s = .ok host) : HostText names (hostInUrl host) host := by
  rcases specialHost_ok h with ⟨rest, hbracketed⟩ | ⟨domain, hdomain, hplain, hnonempty, hhost⟩
  · exact hostText_of_bracketed hbracketed
  · rcases hhost with ⟨a, b, c, d, hoctets, rfl⟩ | ⟨hnumber, rfl⟩
    · obtain ⟨ha, hb, hc, hd⟩ := hostIpv4?_le hoctets
      rw [hostInUrl_of_notMem (by simpa using colon_notMem_octetsText a b c d), String.toList_ofList]
      exact .octets hnames ha hb hc hd
    · exact hostText_of_name (hnames.again hdomain hplain) hnonempty hplain hnumber

/-! ## Names that are ASCII -/

theorem decodeAscii?_of_plain {s : List Char} (h : ∀ c ∈ s, c.toNat < 0x80 ∧ c ≠ '%') :
    decodeAscii? s = some s := by
  induction s with
  | nil => rfl
  | cons c s ih =>
    obtain ⟨hascii, hpercent⟩ := h c List.mem_cons_self
    have hrest := ih fun d hd => h d (List.mem_cons_of_mem c hd)
    rw [decodeAscii?, if_pos hascii, hrest, Option.map_some]
    rintro a b rest heq -
    exact hpercent heq

theorem ascii_of_decodeAscii? {s decoded : List Char} (h : decodeAscii? s = some decoded) :
    ∀ c ∈ decoded, c.toNat < 0x80 := by
  fun_induction decodeAscii? s generalizing decoded with
  | case1 a b rest high low hlow _ hsmall ih =>
    obtain ⟨front, hfront, rfl⟩ := Option.map_eq_some_iff.mp h
    intro c hc
    rcases List.mem_cons.mp hc with rfl | hc
    · have hlast := hexDigit?_lt hlow
      have hsmall : ∀ n < 128, (Char.ofNat n).toNat < 0x80 := by decide
      exact hsmall _ (by omega)
    · exact ih hfront c hc
  | case2 => cases h
  | case3 a b rest hdigits ih =>
    obtain ⟨front, hfront, rfl⟩ := Option.map_eq_some_iff.mp h
    intro c hc
    rcases List.mem_cons.mp hc with rfl | hc
    · decide
    · exact ih hfront c hc
  | case4 c rest hescape hascii ih =>
    obtain ⟨front, hfront, rfl⟩ := Option.map_eq_some_iff.mp h
    intro c hc
    rcases List.mem_cons.mp hc with rfl | hc
    · exact hascii
    · exact ih hfront c hc
  | case5 => cases h
  | case6 =>
    cases h
    simp

theorem toLower_ascii {c : Char} (h : c.toNat < 0x80) :
    c.toLower.toNat < 0x80 ∧ c.toLower.toLower = c.toLower :=
  forall_ascii (p := fun c => c.toLower.toNat < 0x80 ∧ c.toLower.toLower = c.toLower) (by decide) h

theorem asciiNames_lawful : asciiNames.Lawful where
  again {s name} h hplain := by
    obtain ⟨decoded, hdecoded, rfl⟩ := Option.map_eq_some_iff.mp h
    have hascii : ∀ c ∈ lower decoded, c.toNat < 0x80 ∧ c.toLower = c := by
      intro c hc
      obtain ⟨d, hd, rfl⟩ := List.mem_map.mp hc
      exact toLower_ascii (ascii_of_decodeAscii? hdecoded d hd)
    have hpercent : ∀ c ∈ lower decoded, c ≠ '%' := by
      rintro c hc rfl
      exact absurd (List.any_eq_false.mp hplain _ hc) (by decide)
    rw [asciiNames, decodeAscii?_of_plain fun c hc => ⟨(hascii c hc).1, hpercent c hc⟩, Option.map_some]
    exact congrArg some ((List.map_congr_left fun c hc => (hascii c hc).2).trans (List.map_id _))
  numbers {s} h := by
    have hascii : ∀ c ∈ s, c.toNat < 0x80 ∧ c ≠ '%' := by
      intro c hc
      refine ⟨ascii_of_digit (h c hc), ?_⟩
      rintro rfl
      exact absurd (h '%' hc) (by decide)
    rw [asciiNames, decodeAscii?_of_plain hascii, Option.map_some, lower_of_digits h]

end FleetHealth.Net
