import FleetHealth.Proofs.Net.HostTexts

/-! # IP literals

A literal has hexadecimal digits, colons and dots only. The case of its letters does not count,
and an IPv4 literal has no other freedom: it is the canonical text of its address. An IPv6
literal has two colons at least.
-/
namespace FleetHealth.Net

open Text Number

/-! ## Lower case -/

theorem isDigit_toLower (c : Char) : isDigit c.toLower = isDigit c :=
  toLower_keeps isDigit (by decide) c

theorem hexDigit?_toLower (c : Char) : hexDigit? c.toLower = hexDigit? c :=
  toLower_keeps hexDigit? (by decide) c

theorem toLower_eq_colon (c : Char) : c.toLower = ':' ↔ c = ':' := toLower_eq_mark (by decide) c

theorem toLower_eq_dot (c : Char) : c.toLower = '.' ↔ c = '.' := toLower_eq_mark (by decide) c

/-! ## Characters of a literal -/

def InLiteral (c : Char) : Prop := (hexDigit? c).isSome = true ∨ c = ':' ∨ c = '.'

instance (c : Char) : Decidable (InLiteral c) :=
  inferInstanceAs (Decidable ((hexDigit? c).isSome = true ∨ c = ':' ∨ c = '.'))

theorem InLiteral.of_digit {c : Char} (h : isDigit c = true ∨ c = '.') : InLiteral c := by
  rcases h with h | h
  · exact .inl (by simp [hexDigit?, h])
  · exact .inr (.inr h)

theorem hexDigit?_of_hexNat? {s : List Char} {n : Nat} (h : hexNat? s = some n) :
    ∀ c ∈ s, (hexDigit? c).isSome = true := by
  induction s using List.reverseRecOn generalizing n with
  | nil => simp
  | append_singleton s d ih =>
    rw [hexNat?_append, Option.bind_eq_some_iff] at h
    obtain ⟨front, hfront, hlast⟩ := h
    obtain ⟨digit, hdigit, -⟩ := Option.map_eq_some_iff.mp hlast
    intro c hc
    rcases List.mem_append.mp hc with hc | hc
    · exact ih hfront c hc
    · rw [List.mem_singleton.mp hc, hdigit]
      rfl

theorem readGroup?_inLiteral {s : List Char} {n : Nat} (h : readGroup? s = some n) :
    ∀ c ∈ s, InLiteral c := by
  unfold readGroup? at h
  split at h
  · cases h
  · exact fun c hc => .inl (hexDigit?_of_hexNat? h c hc)

/-- A part of an IPv4 literal is the decimal text of its value. -/
theorem readOctet?_eq_decimal {s : List Char} {n : Nat} (h : readOctet? s = some n) : s = decimal n := by
  unfold readOctet? at h
  split at h
  · cases h
    rfl
  · cases h
  · next _ hlead =>
    split at h
    · have hdigits := (Option.filter_eq_some_iff.mp h).1
      unfold readDigits? at hdigits
      split at hdigits
      · next hall =>
        rw [← Option.some.inj hdigits]
        refine (decimal_digitsValue hall.1 (List.all_eq_true.mp hall.2) ?_).symm
        exact fun rest heq => absurd heq (hlead rest)
      · cases hdigits
    · cases h

/-- An IPv4 literal is the canonical text of its address. -/
theorem readOctets?_eq_octetsText {s : List Char} {a b c d : Nat}
    (h : readOctets? s = some (a, b, c, d)) : s = octetsText a b c d := by
  unfold readOctets? at h
  split at h
  · next hsplit =>
    simp only [Option.bind_eq_bind, Option.bind_eq_some_iff, Option.some.injEq, Prod.mk.injEq] at h
    obtain ⟨_, ha, _, hb, _, hc, _, hd, rfl, rfl, rfl, rfl⟩ := h
    rw [← intercalate_splitAt '.' s, hsplit, readOctet?_eq_decimal ha, readOctet?_eq_decimal hb,
      readOctet?_eq_decimal hc, readOctet?_eq_decimal hd]
    simp [List.intercalate_cons_cons, octetsText]
  · cases h

theorem readOctets?_digits {s : List Char} {octets : Nat × Nat × Nat × Nat}
    (h : readOctets? s = some octets) : ∀ c ∈ s, isDigit c = true ∨ c = '.' := by
  obtain ⟨a, b, c, d⟩ := octets
  rw [readOctets?_eq_octetsText h]
  exact fun _ => mem_octetsText

theorem lastGroups?_inLiteral {s : List Char} {groups : List Nat} (h : lastGroups? s = some groups) :
    ∀ c ∈ s, InLiteral c := by
  unfold lastGroups? at h
  split at h
  · next hoctets => exact fun c hc => .of_digit (readOctets?_digits hoctets c hc)
  · obtain ⟨g, hg, -⟩ := Option.map_eq_some_iff.mp h
    exact readGroup?_inLiteral hg

theorem readGroups?_inLiteral {pieces : List (List Char)} {groups : List Nat}
    (h : readGroups? pieces = some groups) : ∀ piece ∈ pieces, ∀ c ∈ piece, InLiteral c := by
  induction pieces generalizing groups with
  | nil => simp
  | cons piece pieces ih =>
    cases pieces with
    | nil => simpa using lastGroups?_inLiteral h
    | cons next pieces =>
      rw [readGroups?_cons piece (List.cons_ne_nil _ _)] at h
      obtain ⟨g, hg, hmore⟩ := Option.bind_eq_some_iff.mp h
      obtain ⟨rest, hrest, -⟩ := Option.map_eq_some_iff.mp hmore
      exact List.forall_mem_cons.mpr ⟨readGroup?_inLiteral hg, ih hrest⟩

theorem mapM_readGroup?_inLiteral {pieces : List (List Char)} {groups : List Nat}
    (h : pieces.mapM readGroup? = some groups) : ∀ piece ∈ pieces, ∀ c ∈ piece, InLiteral c := by
  induction pieces generalizing groups with
  | nil => simp
  | cons piece pieces ih =>
    simp only [List.mapM_cons, Option.bind_eq_bind, Option.bind_eq_some_iff] at h
    obtain ⟨g, hg, rest, hrest, -⟩ := h
    exact List.forall_mem_cons.mpr ⟨readGroup?_inLiteral hg, ih hrest⟩

theorem groupsOf_inLiteral {read : List (List Char) → Option (List Nat)} {s : List Char}
    {groups : List Nat}
    (hread : ∀ {pieces groups}, read pieces = some groups → ∀ piece ∈ pieces, ∀ c ∈ piece, InLiteral c)
    (h : groupsOf read s = some groups) : ∀ c ∈ s, InLiteral c := by
  unfold groupsOf at h
  split at h
  · next hnil => simp [hnil]
  · exact forall_of_splitAt (.inr (.inl rfl)) (hread h)

theorem cutDouble_eq_some {s front back : List Char} (h : cutDouble s = some (front, back)) :
    s = front ++ ':' :: ':' :: back := by
  fun_induction cutDouble s generalizing front with
  | case1 rest =>
    cases h
    rfl
  | case2 c rest hdouble ih =>
    obtain ⟨cut, hcut, heq⟩ := Option.map_eq_some_iff.mp h
    obtain ⟨rfl, rfl⟩ := Prod.mk.inj heq
    exact congrArg (c :: ·) (ih hcut)
  | case3 => cases h

theorem readV6Groups?_inLiteral {s : List Char} {groups : List Nat} (h : readV6Groups? s = some groups) :
    ∀ c ∈ s, InLiteral c := by
  unfold readV6Groups? at h
  split at h
  · exact forall_of_splitAt (.inr (.inl rfl)) (readGroups?_inLiteral (Option.filter_eq_some_iff.mp h).1)
  · next front back hcut =>
    simp only [Option.bind_eq_bind, Option.bind_eq_some_iff] at h
    obtain ⟨before, hbefore, after, hafter, -⟩ := h
    have hfront := groupsOf_inLiteral mapM_readGroup?_inLiteral hbefore
    have hback := groupsOf_inLiteral readGroups?_inLiteral hafter
    rw [cutDouble_eq_some hcut]
    intro c hc
    simp only [List.mem_append, List.mem_cons] at hc
    rcases hc with hc | hc | hc | hc
    · exact hfront c hc
    · exact .inr (.inl hc)
    · exact .inr (.inl hc)
    · exact hback c hc

/-- The two families of literals. -/
theorem readIp?_cases {s : List Char} {ip : IpAddress} (h : readIp? s = some ip) :
    (∃ a b c d, ip = .v4 a b c d ∧ readOctets? s = some (a, b, c, d)) ∨
      ∃ groups, ip = .v6 groups ∧ readV6Groups? s = some groups := by
  unfold readIp? at h
  split at h
  · next ip' hv4 =>
    cases h
    obtain ⟨⟨a, b, c, d⟩, hoctets, rfl⟩ := Option.map_eq_some_iff.mp hv4
    exact .inl ⟨a, b, c, d, rfl, hoctets⟩
  · obtain ⟨groups, hgroups, rfl⟩ := Option.map_eq_some_iff.mp h
    exact .inr ⟨groups, rfl, hgroups⟩

theorem readIp?_inLiteral {s : List Char} {ip : IpAddress} (h : readIp? s = some ip) :
    ∀ c ∈ s, InLiteral c := by
  rcases readIp?_cases h with ⟨a, b, c, d, -, hoctets⟩ | ⟨groups, -, hgroups⟩
  · exact fun c hc => .of_digit (readOctets?_digits hoctets c hc)
  · exact readV6Groups?_inLiteral hgroups

/-! ## Letters of either case -/

/-- An IPv4 literal has no letters. -/
theorem readOctets?_lower (s : List Char) : readOctets? (lower s) = readOctets? s := by
  have hdigits : ∀ {octets}, readOctets? (lower s) = some octets → lower s = s := by
    intro octets h
    refine lower_of_digits fun c hc => ?_
    have hlower := readOctets?_digits h c.toLower (List.mem_map_of_mem hc)
    rwa [isDigit_toLower, toLower_eq_dot] at hlower
  cases h : readOctets? s with
  | some octets => rw [lower_of_digits (readOctets?_digits h), h]
  | none =>
    cases hlower : readOctets? (lower s) with
    | none => rfl
    | some octets =>
      rw [hdigits hlower, h] at hlower
      cases hlower

theorem hexNat?_lower (s : List Char) : hexNat? (lower s) = hexNat? s := by
  simp only [hexNat?, lower, List.foldlM_map, hexDigit?_toLower]

theorem readGroup?_lower (s : List Char) : readGroup? (lower s) = readGroup? s := by
  simp only [readGroup?, hexNat?_lower]
  simp only [lower, List.map_eq_nil_iff, List.length_map]

theorem lastGroups?_lower (s : List Char) : lastGroups? (lower s) = lastGroups? s := by
  simp only [lastGroups?, readOctets?_lower, readGroup?_lower]

theorem readGroups?_lower (pieces : List (List Char)) :
    readGroups? (pieces.map lower) = readGroups? pieces := by
  induction pieces with
  | nil => rfl
  | cons piece pieces ih =>
    cases pieces with
    | nil => exact lastGroups?_lower piece
    | cons next pieces =>
      have hrest : (next :: pieces).map lower ≠ [] := List.cons_ne_nil _ _
      rw [List.map_cons, readGroups?_cons (lower piece) hrest,
        readGroups?_cons piece (List.cons_ne_nil _ _), readGroup?_lower, ih]

theorem mapM_readGroup?_lower (pieces : List (List Char)) :
    (pieces.map lower).mapM readGroup? = pieces.mapM readGroup? := by
  induction pieces with
  | nil => rfl
  | cons piece pieces ih => simp only [List.map_cons, List.mapM_cons, readGroup?_lower, ih]

theorem splitAt_lower (s : List Char) : splitAt ':' (lower s) = (splitAt ':' s).map lower :=
  splitAt_map toLower_eq_colon s

theorem groupsOf_lower {read : List (List Char) → Option (List Nat)}
    (hread : ∀ pieces : List (List Char), read (pieces.map lower) = read pieces) (s : List Char) :
    groupsOf read (lower s) = groupsOf read s := by
  rw [groupsOf, groupsOf, splitAt_lower, hread]
  simp only [lower, List.map_eq_nil_iff]

theorem cutDouble_lower (s : List Char) :
    cutDouble (lower s) = (cutDouble s).map fun cut => (lower cut.1, lower cut.2) := by
  fun_induction cutDouble s with
  | case1 rest => rfl
  | case2 c rest hdouble ih =>
    have hlower : cutDouble (c.toLower :: lower rest) =
        (cutDouble (lower rest)).map fun cut => (c.toLower :: cut.1, cut.2) := by
      rw [cutDouble]
      intro back hc hrest
      cases rest with
      | nil => cases hrest
      | cons d rest =>
        obtain ⟨hd, -⟩ := List.cons.inj hrest
        exact hdouble rest ((toLower_eq_colon c).mp hc) (by rw [(toLower_eq_colon d).mp hd])
    change cutDouble (c.toLower :: lower rest) = _
    rw [hlower, ih, Option.map_map, Option.map_map]
    rfl
  | case3 => rfl

theorem readV6Groups?_lower (s : List Char) : readV6Groups? (lower s) = readV6Groups? s := by
  rw [readV6Groups?, readV6Groups?, cutDouble_lower]
  cases cutDouble s with
  | none => simp only [Option.map_none, splitAt_lower, readGroups?_lower]
  | some cut =>
    simp only [Option.map_some, groupsOf_lower mapM_readGroup?_lower, groupsOf_lower readGroups?_lower]

/-- A literal stands for the same address in lower case. -/
theorem readIp?_lower (s : List Char) : readIp? (lower s) = readIp? s := by
  simp only [readIp?, readV4?, readV6?, readOctets?_lower, readV6Groups?_lower]

/-! ## Texts that are no literals -/

theorem inLiteral_ascii {c : Char} (h : InLiteral c) : c.toNat < 128 := by
  rcases h with h | rfl | rfl
  · rcases toLower_eq_self_or_ascii c with hlower | hascii
    · unfold hexDigit? at h
      split at h
      · next hdigit => exact ascii_of_digit (.inl hdigit)
      · split at h
        · next hletter =>
          rw [hlower] at hletter
          have hhigh : c.toNat ≤ 102 := hletter.2
          omega
        · cases h
    · exact hascii
  · decide
  · decide

/-- No blank, slash or bracket is in a literal. -/
theorem InLiteral.plain {c : Char} (h : InLiteral c) : isBlank c = false ∧ c ∉ ['/', '[', ']'] :=
  forall_ascii (p := fun c => InLiteral c → isBlank c = false ∧ c ∉ ['/', '[', ']']) (by decide)
    (inLiteral_ascii h) h

theorem ne_nil_of_readIp? {s : List Char} {ip : IpAddress} (h : readIp? s = some ip) : s ≠ [] := by
  rintro rfl
  cases h

theorem notMem_of_readIp? {s : List Char} {ip : IpAddress} (h : readIp? s = some ip) {c : Char}
    (hc : c ∈ ['/', '[', ']']) : c ∉ s :=
  fun hmem => (readIp?_inLiteral h c hmem).plain.2 hc

/-- A host and a port are no literal together: there is one colon only. -/
theorem readIp?_oneColon {front back : List Char} (hfront : ':' ∉ front) (hback : ':' ∉ back) :
    readIp? (front ++ ':' :: back) = none := by
  cases h : readIp? (front ++ ':' :: back) with
  | none => rfl
  | some ip =>
    exfalso
    rcases readIp?_cases h with ⟨a, b, c, d, -, hoctets⟩ | ⟨groups, -, hgroups⟩
    · have hcolon := readOctets?_digits hoctets ':' (by simp)
      exact absurd hcolon (by decide)
    · have hcut : cutDouble (front ++ ':' :: back) = none := by
        rw [cutDouble_of_notMem _ hfront, cutDouble_oneColon hback]
        rfl
      have hpieces : readGroups? [front, back] = some groups ∧ groups.length = 8 := by
        rw [readV6Groups?, hcut, splitAt_append _ hfront, splitAt_of_notMem hback] at hgroups
        simpa using Option.filter_eq_some_iff.mp hgroups
      obtain ⟨hread, hlength⟩ := hpieces
      -- two pieces are three groups at most
      rw [readGroups?_cons front (List.cons_ne_nil _ _)] at hread
      obtain ⟨g, -, hlast⟩ := Option.bind_eq_some_iff.mp hread
      obtain ⟨rest, hrest, rfl⟩ := Option.map_eq_some_iff.mp hlast
      have hshort := (lastGroups?_lt hrest).1
      rw [List.length_cons] at hlength
      omega

/-! ## The canonical text of an address as a host -/

/-- The text under which an address is a host of a URL. An IPv4 address mapped into IPv6 has no
text of its own here. -/
def IpAddress.hostText : IpAddress → List Char
  | .v4 a b c d => octetsText a b c d
  | .v6 groups => groupsText groups

theorem eq_hostText_of_v4 {s : List Char} {ip : IpAddress} (h : readIp? s = some ip)
    (hv4 : ip.isV6 = false) : s = ip.hostText := by
  rcases readIp?_cases h with ⟨a, b, c, d, rfl, hoctets⟩ | ⟨groups, rfl, -⟩
  · exact readOctets?_eq_octetsText hoctets
  · cases hv4

/-- A number in the last place makes a domain an IPv4 address. -/
theorem endsInNumber_of_readOctets? {s : List Char} {octets : Nat × Nat × Nat × Nat}
    (h : readOctets? s = some octets) : endsInNumber s = true := by
  obtain ⟨a, b, c, d⟩ := octets
  rw [readOctets?_eq_octetsText h]
  exact endsInNumber_octetsText a b c d

/-- Hosts of URLs that are IP literals are in their canonical text. -/
theorem specialHost_hostText {names : HostNames} {s : List Char} {host : String} {ip : IpAddress}
    (h : specialHost names s = .ok host) (hip : readIp? host.toList = some ip) :
    host.toList = ip.hostText := by
  rcases specialHost_ok h with ⟨rest, hbracketed⟩ | ⟨domain, -, hplain, -, hhost⟩
  · obtain ⟨groups, hgroups, rfl⟩ := bracketedHost_ok hbracketed
    obtain ⟨hlength, hsmall⟩ := readV6Groups?_shape hgroups
    rw [String.toList_ofList, readIp?_groupsText hlength hsmall] at hip
    rw [String.toList_ofList, ← Option.some.inj hip]
    rfl
  · rcases hhost with ⟨a, b, c, d, -, rfl⟩ | ⟨hnumber, rfl⟩
    · rw [String.toList_ofList] at hip ⊢
      exact eq_hostText_of_v4 hip (isV6_readIp?_of_notMem (colon_notMem_octetsText a b c d) hip)
    · -- a domain has no colon and would have been read as numbers
      rw [String.toList_ofList] at hip ⊢
      have hcolon : ':' ∉ domain := fun hmem =>
        absurd (List.any_eq_false.mp hplain ':' hmem) (by decide)
      rcases readIp?_cases hip with ⟨a, b, c, d, -, hoctets⟩ | ⟨groups, -, hgroups⟩
      · rw [endsInNumber_of_readOctets? hoctets] at hnumber
        cases hnumber
      · rw [readV6Groups?_of_notMem hcolon] at hgroups
        cases hgroups

/-! ## The other spelling of an IPv6 address -/

theorem readOctet?_decimal {n : Nat} (h : n ≤ 255) : readOctet? (decimal n) = some n := by
  have hdigits := readDigits?_decimal n
  have hlength : (decimal n).length ≤ 3 :=
    (Nat.length_toDigits_le_iff (by decide) (by decide)).mpr (Nat.lt_of_le_of_lt h (by decide))
  obtain rfl | ⟨d, ds, hn, hd⟩ := eq_zero_or_decimal n
  · rfl
  · rw [hn] at hdigits hlength ⊢
    rw [readOctet?, if_pos hlength, hdigits]
    · simpa using h
    · exact fun heq => hd (List.cons.inj heq).1
    · exact fun _ heq => hd (List.cons.inj heq).1

theorem readOctets?_octetsText {a b c d : Nat} (ha : a ≤ 255) (hb : b ≤ 255) (hc : c ≤ 255)
    (hd : d ≤ 255) : readOctets? (octetsText a b c d) = some (a, b, c, d) := by
  rw [readOctets?, splitAt_octetsText]
  simp only [readOctet?_decimal ha, readOctet?_decimal hb, readOctet?_decimal hc,
    readOctet?_decimal hd, Option.bind_eq_bind, Option.bind_some]

theorem readIp?_octetsText {a b c d : Nat} (ha : a ≤ 255) (hb : b ≤ 255) (hc : c ≤ 255) (hd : d ≤ 255) :
    readIp? (octetsText a b c d) = some (.v4 a b c d) := by
  rw [readIp?, readV4?, readOctets?_octetsText ha hb hc hd]
  rfl

def dottedText (front : List Nat) (x y : Nat) : List Char :=
  colonSeparated front ++ ':' :: octetsText (x / 256) (x % 256) (y / 256) (y % 256)

theorem splitAt_colonSeparated_append {groups : List Nat} (rest : List Char) (h : groups ≠ []) :
    splitAt ':' (colonSeparated groups ++ ':' :: rest) = groups.map hexText ++ splitAt ':' rest := by
  induction groups with
  | nil => contradiction
  | cons g groups ih =>
    cases groups with
    | nil => simpa [colonSeparated] using splitAt_append rest (colon_notMem_hexText g)
    | cons g' groups =>
      rw [colonSeparated_cons, List.append_assoc, List.cons_append,
        splitAt_append _ (colon_notMem_hexText g), ih (List.cons_ne_nil _ _)]
      rfl

theorem readGroups?_hexText_append {groups last : List Nat} {piece : List Char}
    (h : ∀ g ∈ groups, g < 65536) (hlast : lastGroups? piece = some last) :
    readGroups? (groups.map hexText ++ [piece]) = some (groups ++ last) := by
  induction groups with
  | nil => exact hlast
  | cons g groups ih =>
    have hrest := ih fun g hg => h g (List.mem_cons_of_mem _ hg)
    rw [List.map_cons, List.cons_append, readGroups?_cons _ (by simp),
      readGroup?_hexText (h g List.mem_cons_self), hrest]
    rfl

/-- Whatever the groups are, the last two of them may be written as an IPv4 literal. -/
theorem readIp?_dottedText {front : List Nat} {x y : Nat} (hlength : front.length = 6)
    (hfront : ∀ g ∈ front, g < 65536) (hx : x < 65536) (hy : y < 65536) :
    readIp? (dottedText front x y) = some (.v6 (front ++ [x, y])) := by
  have hoctets := readOctets?_octetsText (a := x / 256) (b := x % 256) (c := y / 256) (d := y % 256)
    (by omega) (by omega) (by omega) (by omega)
  have hlast : lastGroups? (octetsText (x / 256) (x % 256) (y / 256) (y % 256)) = some [x, y] := by
    simp only [lastGroups?, hoctets, Nat.div_add_mod]
  have hnonempty : front ≠ [] := by
    rintro rfl
    cases hlength
  have hcut : cutDouble (dottedText front x y) = none := by
    rw [dottedText, cutDouble_colonSeparated, cutDouble_oneColon (colon_notMem_octetsText _ _ _ _)]
    rfl
  have hv6 : readV6Groups? (dottedText front x y) = some (front ++ [x, y]) := by
    rw [readV6Groups?, hcut, dottedText, splitAt_colonSeparated_append _ hnonempty,
      splitAt_of_notMem (colon_notMem_octetsText _ _ _ _)]
    simp [readGroups?_hexText_append hfront hlast, hlength]
  have hv4 : readOctets? (dottedText front x y) = none := by
    cases h : readOctets? (dottedText front x y) with
    | none => rfl
    | some octets => exact absurd (readOctets?_digits h ':' (by simp [dottedText])) (by decide)
  rw [readIp?, readV4?, hv4, readV6?, hv6]
  rfl

/-- So every IPv6 address has two spellings that differ in more than the case of letters. -/
theorem exists_other_spelling {groups : List Nat} (hlength : groups.length = 8)
    (h : ∀ g ∈ groups, g < 65536) :
    ∃ other, readIp? other = some (.v6 groups) ∧ lower other ≠ lower (groupsText groups) := by
  have hfront : (groups.take 6).length = 6 := by rw [List.length_take, hlength]; rfl
  have htail : (groups.drop 6).length = 2 := by rw [List.length_drop, hlength]
  obtain ⟨x, y, hdrop⟩ := List.length_eq_two.mp htail
  have hsplit : groups.take 6 ++ [x, y] = groups := by rw [← hdrop, List.take_append_drop]
  have hlast : ∀ g ∈ [x, y], g < 65536 := fun g hg => h g (List.mem_of_mem_drop (hdrop ▸ hg))
  refine ⟨dottedText (groups.take 6) x y, ?_, fun heq => ?_⟩
  · have hread := readIp?_dottedText hfront (fun g hg => h g (List.mem_of_mem_take hg))
      (hlast x (by simp)) (hlast y (by simp))
    rwa [hsplit] at hread
  · -- only one of them has dots
    have hdot : '.' ∈ lower (groupsText groups) := by
      rw [← heq]
      exact List.mem_map.mpr ⟨'.', by simp [dottedText, octetsText], rfl⟩
    obtain ⟨c, hc, hlower⟩ := List.mem_map.mp hdot
    rw [toLower_eq_dot] at hlower
    exact dot_notMem_groupsText groups (hlower ▸ hc)

end FleetHealth.Net
