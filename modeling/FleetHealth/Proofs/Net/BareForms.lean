import FleetHealth.Proofs.Net.Literals

/-! # Bare addresses

A bare address is meant to be an IP literal, or a name or an IPv6 literal in brackets, either
with a port or without. All of these are read. Three kinds of other texts are read too: what
follows a closing bracket is ignored unless it begins with a colon, nothing is asked of the
text in brackets but that it has no slash, and a name may have brackets in it unless it begins
with an opening one, and before a port colons too.
-/
namespace FleetHealth.Net

open Text Number

def Address.bare (host : List Char) (port : Option Nat) : Address where
  host := String.ofList (lower host)
  rpcPort := port
  metricsPort := none
  peerPort := none
  path := none
  tls := false

/-! ## Ports -/

/-- What stands after a host: nothing, or a colon and a port from 1 to 65535. -/
inductive PortSuffix : List Char → Option Nat → Prop
  | empty : PortSuffix [] none
  | port {digits : List Char} {port : Nat} (read : readUnsigned? portMax digits = some port)
      (nonzero : port ≠ 0) : PortSuffix (':' :: digits) (some port)

theorem readPort_ok_iff {digits : List Char} {port : Nat} :
    readPort digits = .ok port ↔ readUnsigned? portMax digits = some port ∧ port ≠ 0 := by
  have hport : readUnsigned? portMax digits = some port ∧ port ≠ 0 ↔
      (readUnsigned? portMax digits).filter (· ≠ 0) = some port := by
    simp [Option.filter_eq_some_iff]
  rw [hport, readPort]
  cases (readUnsigned? portMax digits).filter (· ≠ 0) <;> simp

theorem colon_notMem_of_readUnsigned? {bound n : Nat} {s : List Char}
    (h : readUnsigned? bound s = some n) : ':' ∉ s := by
  have hdigits : ':' ∉ dropPlus s := by
    have hread := (Option.filter_eq_some_iff.mp h).1
    unfold readDigits? at hread
    split at hread
    · next hall => exact fun hmem => absurd (List.all_eq_true.mp hall.2 ':' hmem) (by decide)
    · cases hread
  unfold dropPlus at hdigits
  split at hdigits
  · simpa using hdigits
  · exact hdigits

/-- Text and port of a suffix, as the reader of bare addresses takes them. -/
theorem PortSuffix.of_readPort {host host' digits : List Char} {port : Option Nat}
    (h : ((readPort digits).map fun p => (host', some p)) = .ok (host, port)) :
    host' = host ∧ PortSuffix (':' :: digits) port := by
  cases hport : readPort digits with
  | error e =>
    rw [hport] at h
    cases h
  | ok p =>
    rw [hport] at h
    cases h
    obtain ⟨hread, hnonzero⟩ := readPort_ok_iff.mp hport
    exact ⟨rfl, .port hread hnonzero⟩

/-! ## Where a bare address is cut -/

inductive BareCut : List Char → List Char → Option Nat → Prop
  | literal {s : List Char} {ip : IpAddress} (read : readIp? s = some ip) : BareCut s s none
  | name {host suffix : List Char} {port : Option Nat} (first : host.head? ≠ some '[')
      (noLiteral : readIp? (host ++ suffix) = none) (ends : PortSuffix suffix port)
      (last : suffix = [] → ':' ∉ host) : BareCut (host ++ suffix) host port
  | bracketed {host suffix : List Char} {port : Option Nat} (closed : ']' ∉ host)
      (ends : PortSuffix suffix port) : BareCut ('[' :: (host ++ ']' :: suffix)) host port
  | ignored {host rest : List Char} (closed : ']' ∉ host) (more : rest ≠ [])
      (noPort : rest.head? ≠ some ':') : BareCut ('[' :: (host ++ ']' :: rest)) host none

/-- A port that stands in a text has 16 bits. -/
theorem BareCut.port_le {s host : List Char} {port : Option Nat} (h : BareCut s host port) :
    ∀ p, port = some p → p ≤ portMax := by
  have hsuffix : ∀ {suffix port}, PortSuffix suffix port → ∀ p, port = some p → p ≤ portMax := by
    rintro _ _ (_ | ⟨read, -⟩) p ⟨⟩
    exact readUnsigned?_le read
  cases h with
  | literal | ignored => exact nofun
  | name _ _ ends _ | bracketed _ ends => exact hsuffix ends

theorem cutBare_unbracketed {s : List Char} (h : s.head? ≠ some '[') :
    cutBare s = if (readIp? s).isSome then .ok (s, none)
      else match cutLast ':' s with
        | some (host, port) => (readPort port).map fun p => (host, some p)
        | none => .ok (s, none) := by
  unfold cutBare
  split
  · exact absurd rfl h
  · rfl

theorem BareCut.cutBare {s host : List Char} {port : Option Nat} (h : BareCut s host port) :
    cutBare s = .ok (host, port) := by
  cases h with
  | literal read =>
    have hbracket := notMem_of_readIp? read (c := '[') (by decide)
    have hfirst : s.head? ≠ some '[' := fun hhead => hbracket (List.mem_of_mem_head? hhead)
    rw [cutBare_unbracketed hfirst, read]
    rfl
  | @name host suffix port first noLiteral ends last =>
    cases ends with
    | empty =>
      rw [List.append_nil] at noLiteral ⊢
      rw [cutBare_unbracketed first, noLiteral, cutLast_of_notMem (last rfl)]
      rfl
    | @port digits _ read nonzero =>
      have hfirst : (host ++ ':' :: digits).head? ≠ some '[' := by
        cases host with
        | nil => simp
        | cons c host => exact first
      rw [cutBare_unbracketed hfirst, noLiteral,
        cutLast_append host (colon_notMem_of_readUnsigned? read)]
      simp [readPort_ok_iff.mpr ⟨read, nonzero⟩, Except.map]
  | bracketed closed ends =>
    rw [Net.cutBare, cutFirst_append _ closed]
    cases ends with
    | empty => rfl
    | port read nonzero => simp [readPort_ok_iff.mpr ⟨read, nonzero⟩, Except.map]
  | @ignored host rest closed more noPort =>
    rw [Net.cutBare, cutFirst_append _ closed]
    cases rest with
    | nil => exact absurd rfl more
    | cons c rest =>
      have hc : c ≠ ':' := fun hc => noPort (by simp [hc])
      split
      · next heq => cases heq
      · next heq =>
        obtain ⟨-, hafter⟩ := Prod.mk.inj (Option.some.inj heq)
        exact absurd (List.cons.inj hafter).1 hc
      · next heq =>
        obtain ⟨rfl, -⟩ := Prod.mk.inj (Option.some.inj heq)
        rfl

theorem BareCut.of_cutBare {s host : List Char} {port : Option Nat} (h : Net.cutBare s = .ok (host, port)) :
    BareCut s host port := by
  by_cases hfirst : s.head? = some '['
  · obtain ⟨rest, rfl⟩ := List.head?_eq_some_iff.mp hfirst
    rw [Net.cutBare] at h
    split at h
    · cases h
    · next host' digits hcut =>
      obtain ⟨rfl, hends⟩ := PortSuffix.of_readPort h
      obtain ⟨rfl, hclosed⟩ := cutFirst_eq_some hcut
      exact .bracketed hclosed hends
    · next host' after hnoPort hcut =>
      cases h
      obtain ⟨rfl, hclosed⟩ := cutFirst_eq_some hcut
      by_cases hafter : after = []
      · subst hafter
        exact .bracketed hclosed .empty
      · refine .ignored hclosed hafter fun hhead => ?_
        obtain ⟨digits, rfl⟩ := List.head?_eq_some_iff.mp hhead
        exact hnoPort digits rfl
  · rw [cutBare_unbracketed hfirst] at h
    split at h
    · next hliteral =>
      cases h
      obtain ⟨ip, hip⟩ := Option.isSome_iff_exists.mp hliteral
      exact .literal hip
    · next hliteral =>
      rw [Option.not_isSome_iff_eq_none] at hliteral
      split at h
      · next host' digits hcut =>
        obtain ⟨rfl, hends⟩ := PortSuffix.of_readPort h
        obtain ⟨rfl, -⟩ := cutLast_eq_some hcut
        refine .name (fun hhead => hfirst ?_) hliteral hends (fun hnil => by cases hnil)
        rw [List.head?_append, hhead]
        rfl
      · next hcut =>
        cases h
        have hname : BareCut (s ++ []) s none :=
          .name hfirst (by rwa [List.append_nil]) .empty fun _ => notMem_of_cutLast hcut
        rwa [List.append_nil] at hname

theorem cutBare_ok_iff {s host : List Char} {port : Option Nat} :
    cutBare s = .ok (host, port) ↔ BareCut s host port :=
  ⟨.of_cutBare, BareCut.cutBare⟩

/-- A text is cut in one way. -/
theorem BareCut.unique {s host host' : List Char} {port port' : Option Nat} (h : BareCut s host port)
    (h' : BareCut s host' port') : host = host' ∧ port = port' :=
  Prod.mk.inj (Except.ok.inj (h.cutBare.symm.trans h'.cutBare))

theorem readBare_ok_iff {s : List Char} {a : Address} : readBare s = .ok a ↔
    ∃ host port, BareCut s host port ∧ host ≠ [] ∧ '/' ∉ host ∧ a = .bare host port := by
  unfold readBare
  simp only [bind_eq_ok]
  constructor
  · rintro ⟨⟨host, port⟩, hcut, h⟩
    dsimp only at h
    split at h
    · cases h
    · next hvalid =>
      rw [not_or] at hvalid
      exact ⟨host, port, cutBare_ok_iff.mp hcut, hvalid.1, hvalid.2, (Except.ok.inj h).symm⟩
  · rintro ⟨host, port, hcut, hnonempty, hslash, rfl⟩
    refine ⟨(host, port), hcut.cutBare, ?_⟩
    simp only [hnonempty, hslash, or_self, if_false]
    rfl

/-! ## Forms -/

def IsHostName (s : List Char) : Prop := s ≠ [] ∧ ∀ c ∈ s, c ∉ ['/', ':', '[', ']']

def IsV6Literal (s : List Char) : Prop := ∃ groups, readIp? s = some (.v6 groups)

/-- The forms that a bare address is meant to have: an IP literal, or a name or an IPv6 literal
in brackets with or without a port. -/
inductive BareForm : List Char → List Char → Option Nat → Prop
  | literal {s : List Char} {ip : IpAddress} (read : readIp? s = some ip) : BareForm s s none
  | name {host suffix : List Char} {port : Option Nat} (named : IsHostName host)
      (ends : PortSuffix suffix port) : BareForm (host ++ suffix) host port
  | bracketed {host suffix : List Char} {port : Option Nat} (v6 : IsV6Literal host)
      (ends : PortSuffix suffix port) : BareForm ('[' :: (host ++ ']' :: suffix)) host port

/-- Other texts that pass for a bare address: one with a tail after the brackets, one with
anything else in brackets, and a name with a colon or a bracket in it. -/
inductive StrayForm : List Char → List Char → Option Nat → Prop
  | ignored {host rest : List Char} (nonempty : host ≠ []) (slash : '/' ∉ host)
      (closed : ']' ∉ host) (more : rest ≠ []) (noPort : rest.head? ≠ some ':') :
      StrayForm ('[' :: (host ++ ']' :: rest)) host none
  | bracketed {host suffix : List Char} {port : Option Nat} (nonempty : host ≠ [])
      (slash : '/' ∉ host) (closed : ']' ∉ host) (noV6 : ¬ IsV6Literal host)
      (ends : PortSuffix suffix port) : StrayForm ('[' :: (host ++ ']' :: suffix)) host port
  | name {host suffix : List Char} {port : Option Nat} (first : host.head? ≠ some '[')
      (slash : '/' ∉ host) (marked : ∃ c ∈ host, c ∈ [':', '[', ']'])
      (noLiteral : readIp? (host ++ suffix) = none) (ends : PortSuffix suffix port)
      (last : suffix = [] → ':' ∉ host) : StrayForm (host ++ suffix) host port

theorem IsHostName.notMem {s : List Char} (h : IsHostName s) {c : Char}
    (hc : c ∈ ['/', ':', '[', ']']) : c ∉ s :=
  fun hmem => h.2 c hmem hc

theorem IsHostName.head?_ne {s : List Char} (h : IsHostName s) : s.head? ≠ some '[' :=
  fun hhead => h.notMem (c := '[') (by decide) (List.mem_of_mem_head? hhead)

/-- A form is cut where its host ends, and the host is a valid one. -/
theorem BareForm.cut {s host : List Char} {port : Option Nat} (h : BareForm s host port) :
    BareCut s host port ∧ host ≠ [] ∧ '/' ∉ host := by
  cases h with
  | literal read => exact ⟨.literal read, ne_nil_of_readIp? read, notMem_of_readIp? read (by decide)⟩
  | name named ends =>
    refine ⟨?_, named.1, named.notMem (by decide)⟩
    have hcolon : ':' ∉ host := named.notMem (by decide)
    cases ends with
    | empty =>
      cases hread : readIp? host with
      | some ip =>
        rw [List.append_nil]
        exact .literal hread
      | none => exact .name named.head?_ne (by rwa [List.append_nil]) .empty fun _ => hcolon
    | port read nonzero =>
      have hnone := readIp?_oneColon hcolon (colon_notMem_of_readUnsigned? read)
      exact .name named.head?_ne hnone (.port read nonzero) fun _ => hcolon
  | bracketed v6 ends =>
    obtain ⟨groups, hread⟩ := v6
    exact ⟨.bracketed (notMem_of_readIp? hread (by decide)) ends, ne_nil_of_readIp? hread,
      notMem_of_readIp? hread (by decide)⟩

theorem StrayForm.cut {s host : List Char} {port : Option Nat} (h : StrayForm s host port) :
    BareCut s host port ∧ host ≠ [] ∧ '/' ∉ host := by
  cases h with
  | ignored nonempty slash closed more noPort => exact ⟨.ignored closed more noPort, nonempty, slash⟩
  | bracketed nonempty slash closed noV6 ends => exact ⟨.bracketed closed ends, nonempty, slash⟩
  | name first slash marked noLiteral ends last =>
    obtain ⟨c, hc, -⟩ := marked
    exact ⟨.name first noLiteral ends last, List.ne_nil_of_mem hc, slash⟩

/-- What is cut with a valid host has one of the forms. -/
theorem BareCut.form {s host : List Char} {port : Option Nat} (h : BareCut s host port)
    (nonempty : host ≠ []) (slash : '/' ∉ host) : BareForm s host port ∨ StrayForm s host port := by
  cases h with
  | literal read => exact .inl (.literal read)
  | name first noLiteral ends last =>
    by_cases hmarked : ∃ c ∈ host, c ∈ [':', '[', ']']
    · exact .inr (.name first slash hmarked noLiteral ends last)
    · refine .inl (.name ⟨nonempty, fun c hc hmark => ?_⟩ ends)
      rcases List.mem_cons.mp hmark with rfl | hmark
      · exact slash hc
      · exact hmarked ⟨c, hc, hmark⟩
  | bracketed closed ends =>
    by_cases hv6 : IsV6Literal host
    · exact .inl (.bracketed hv6 ends)
    · exact .inr (.bracketed nonempty slash closed hv6 ends)
  | ignored closed more noPort => exact .inr (.ignored nonempty slash closed more noPort)

/-- A form that begins with a bracket is an IPv6 literal in brackets. -/
theorem BareForm.of_bracket {s host : List Char} {port : Option Nat} (h : BareForm s host port)
    (hs : s.head? = some '[') :
    IsV6Literal host ∧ ∃ suffix, s = '[' :: (host ++ ']' :: suffix) ∧ PortSuffix suffix port := by
  cases h with
  | literal read =>
    exact absurd (List.mem_of_mem_head? hs) (notMem_of_readIp? read (by decide))
  | name named ends =>
    rw [List.head?_append_of_ne_nil _ named.1] at hs
    exact absurd hs named.head?_ne
  | bracketed v6 ends => exact ⟨v6, _, rfl, ends⟩

/-- No text has forms of both kinds. -/
theorem BareForm.not_stray {s host host' : List Char} {port port' : Option Nat}
    (h : BareForm s host port) : ¬ StrayForm s host' port' := by
  intro hstray
  obtain ⟨rfl, rfl⟩ := h.cut.1.unique hstray.cut.1
  cases hstray with
  | ignored nonempty slash closed more noPort =>
    obtain ⟨-, suffix, heq, hends⟩ := h.of_bracket rfl
    simp only [List.cons.injEq, List.append_cancel_left_eq, true_and] at heq
    subst heq
    cases hends
    exact more rfl
  | bracketed nonempty slash closed noV6 ends => exact noV6 (h.of_bracket rfl).1
  | @name _ suffix _ first slash marked noLiteral ends last =>
    generalize hs : host ++ suffix = s at h noLiteral
    cases h with
    | literal read =>
      rw [read] at noLiteral
      cases noLiteral
    | name named =>
      obtain ⟨c, hc, hmark⟩ := marked
      exact named.2 c hc (List.mem_cons_of_mem _ hmark)
    | bracketed v6 ends =>
      cases host with
      | nil =>
        obtain ⟨c, hc, -⟩ := marked
        cases hc
      | cons c host => exact first (by rw [(List.cons.inj hs).1]; rfl)

/-! ## Main result -/

theorem hasSchemeMark_iff {s : List Char} : hasSchemeMark s = true ↔ "://".toList <:+: s := by
  have hmark : ∀ s, isSchemeMark s = true ↔ "://".toList <+: s := by
    intro s
    unfold isSchemeMark
    split
    · simp
    · next hnone =>
      refine iff_of_false (by decide) ?_
      rintro ⟨rest, rfl⟩
      exact hnone rest rfl
  induction s with
  | nil => simp [hasSchemeMark]
  | cons c s ih => simp only [hasSchemeMark, Bool.or_eq_true, hmark, ih, List.infix_cons_iff]

/-- A text that is neither a multiaddr nor a URL is read as a bare address. -/
theorem Address.parse_multiaddr {urls : List Char → Except UrlError Url} {raw : String}
    (hslash : (trim raw.toList).head? = some '/') :
    Address.parse urls raw = readMultiaddr (trim raw.toList) := by
  have hnonempty : trim raw.toList ≠ [] := by
    intro hnil
    rw [hnil] at hslash
    cases hslash
  unfold Address.parse
  simp only [hnonempty, hslash, if_false, if_true]

theorem Address.parse_bare {urls : List Char → Except UrlError Url} {raw : String}
    (hslash : (trim raw.toList).head? ≠ some '/') (hmark : ¬ "://".toList <:+: trim raw.toList)
    (a : Address) : Address.parse urls raw = .ok a ↔ readBare (trim raw.toList) = .ok a := by
  rw [← hasSchemeMark_iff, Bool.not_eq_true] at hmark
  unfold Address.parse
  by_cases hempty : trim raw.toList = []
  · simp only [hempty, if_true]
    exact iff_of_false (fun h => by cases h) (fun h => by cases h)
  · simp only [hempty, hslash, hmark, if_false, Bool.false_eq_true]

/-- A bare text is accepted exactly if it has one of the forms that it is meant to have or is one
of the strays, and its address is that of the host and the port in it. The strays are all that
is accepted beyond these forms. -/
theorem bare_text_is_read_by_form (urls : List Char → Except UrlError Url) {raw : String}
    (hslash : (trim raw.toList).head? ≠ some '/') (hmark : ¬ "://".toList <:+: trim raw.toList) :
    (∀ a, Address.parse urls raw = .ok a ↔ ∃ host port,
      (BareForm (trim raw.toList) host port ∨ StrayForm (trim raw.toList) host port) ∧
        a = .bare host port) ∧
    ((∀ a, Address.parse urls raw = .ok a ↔ ∃ host port,
      BareForm (trim raw.toList) host port ∧ a = .bare host port) ↔
        ¬ ∃ host port, StrayForm (trim raw.toList) host port) := by
  have hread : ∀ a, Address.parse urls raw = .ok a ↔ ∃ host port,
      (BareForm (trim raw.toList) host port ∨ StrayForm (trim raw.toList) host port) ∧
        a = .bare host port := by
    intro a
    rw [Address.parse_bare hslash hmark, readBare_ok_iff]
    constructor
    · rintro ⟨host, port, hcut, hnonempty, hslash, ha⟩
      exact ⟨host, port, hcut.form hnonempty hslash, ha⟩
    · rintro ⟨host, port, hform, ha⟩
      obtain ⟨hcut, hnonempty, hslash⟩ := hform.elim BareForm.cut StrayForm.cut
      exact ⟨host, port, hcut, hnonempty, hslash, ha⟩
  refine ⟨hread, fun hforms => ?_, fun hnone a => ?_⟩
  · -- a stray would be accepted, and with it would have a form that it was meant to have
    rintro ⟨host, port, hstray⟩
    have haccepted : Address.parse urls raw = .ok (.bare host port) :=
      (hread _).mpr ⟨host, port, .inr hstray, rfl⟩
    obtain ⟨host', port', hform, -⟩ := (hforms _).mp haccepted
    exact hform.not_stray hstray
  · rw [hread]
    refine exists_congr fun host => exists_congr fun port => and_congr_left fun _ => ?_
    exact or_iff_left fun hstray => hnone ⟨host, port, hstray⟩

theorem loopback_with_port_is_read :
    (trim "[::1]:9000".toList).head? ≠ some '/' ∧ ¬ "://".toList <:+: trim "[::1]:9000".toList ∧
      Address.parse (readUrl asciiNames) "[::1]:9000" = .ok (.bare "::1".toList (some 9000)) := by
  have hslash : (trim "[::1]:9000".toList).head? ≠ some '/' := by decide
  have hmark : ¬ "://".toList <:+: trim "[::1]:9000".toList := by
    rw [← hasSchemeMark_iff]
    decide
  have htext : trim "[::1]:9000".toList = '[' :: ("::1".toList ++ ']' :: ':' :: "9000".toList) := by decide
  have hform : BareForm (trim "[::1]:9000".toList) "::1".toList (some 9000) := by
    rw [htext]
    exact .bracketed ⟨[0, 0, 0, 0, 0, 0, 0, 1], by decide⟩ (.port (by decide) (by decide))
  exact ⟨hslash, hmark, ((bare_text_is_read_by_form _ hslash hmark).1 _).mpr ⟨_, _, .inl hform, rfl⟩⟩

/-- Without its colon the port is ignored: the text has no form that it was meant to have. -/
theorem loopback_with_tail_is_read :
    (trim "[::1]9000".toList).head? ≠ some '/' ∧ ¬ "://".toList <:+: trim "[::1]9000".toList ∧
      Address.parse (readUrl asciiNames) "[::1]9000" = .ok (.bare "::1".toList none) ∧
        ¬ ∃ host port, BareForm (trim "[::1]9000".toList) host port := by
  have hslash : (trim "[::1]9000".toList).head? ≠ some '/' := by decide
  have hmark : ¬ "://".toList <:+: trim "[::1]9000".toList := by
    rw [← hasSchemeMark_iff]
    decide
  have htext : trim "[::1]9000".toList = '[' :: ("::1".toList ++ ']' :: "9000".toList) := by decide
  have hstray : StrayForm (trim "[::1]9000".toList) "::1".toList none := by
    rw [htext]
    exact .ignored (by decide) (by decide) (by decide) (by decide) (by decide)
  refine ⟨hslash, hmark, ?_, fun ⟨host, port, hform⟩ => hform.not_stray hstray⟩
  obtain ⟨hcut, hnonempty, hhost⟩ := hstray.cut
  rw [Address.parse_bare hslash hmark, readBare_ok_iff]
  exact ⟨_, _, hcut, hnonempty, hhost, rfl⟩

end FleetHealth.Net
