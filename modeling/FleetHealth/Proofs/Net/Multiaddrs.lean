import FleetHealth.Proofs.Net.BareForms
import Mathlib.Logic.Relation

/-! # Multiaddrs

A multiaddr is a sequence of protocols between slashes. A host or port protocol takes the next
token as its value, whatever it is, and every other token stands alone. Tokens can be read in this
way once only, and the last protocol of each kind decides. Further slashes, and words that are no
protocol, change nothing.
-/
namespace FleetHealth.Net

open Text Number

/-! ## Sequences of protocols -/

def hostProtocols : List String := ["ip4", "ip6", "dns", "dns4", "dns6"]

def portProtocols : List String := ["tcp", "udp"]

def tlsProtocols : List String := ["https", "tls"]

def TakesValue (name : List Char) : Prop :=
  String.ofList name ∈ hostProtocols ∨ String.ofList name ∈ portProtocols

instance : DecidablePred TakesValue := fun _ => inferInstanceAs (Decidable (_ ∨ _))

/-- A token in the place of a protocol, with its value exactly if it takes one. -/
structure Component where
  name : List Char
  value : Option (List Char)
  complete : value.isSome = true ↔ TakesValue name

namespace Component

def tokens (c : Component) : List (List Char) := c.name :: c.value.toList

def host? (c : Component) : Option (List Char) :=
  if String.ofList c.name ∈ hostProtocols then c.value else none

def port? (c : Component) : Option (List Char) :=
  if String.ofList c.name ∈ portProtocols then c.value else none

def isTls (c : Component) : Bool := String.ofList c.name ∈ tlsProtocols

end Component

/-- Components in a row. The last protocol may lack its value. -/
inductive Sequence where
  | nil
  | lacking (name : List Char) (takes : TakesValue name)
  | cons (c : Component) (s : Sequence)

namespace Sequence

def tokens : Sequence → List (List Char)
  | nil => []
  | lacking name _ => [name]
  | cons c s => c.tokens ++ s.tokens

/-- No value is missing. -/
def Whole : Sequence → Prop
  | nil => True
  | lacking _ _ => False
  | cons _ s => s.Whole

def components : Sequence → List Component
  | nil | lacking _ _ => []
  | cons c s => c :: s.components

def hosts (s : Sequence) : List (List Char) := s.components.filterMap Component.host?

def ports (s : Sequence) : List (List Char) := s.components.filterMap Component.port?

def tls (s : Sequence) : Bool := s.components.any Component.isTls

def PortsFit (s : Sequence) : Prop :=
  ∀ digits ∈ s.ports, ∃ port, readUnsigned? portMax digits = some port ∧ port ≠ 0

def lastPort? (s : Sequence) : Option Nat := s.ports.getLast?.bind (readUnsigned? portMax)

def address (s : Sequence) (host : List Char) : Address where
  host := String.ofList (lower host)
  rpcPort := none
  metricsPort := none
  peerPort := s.lastPort?
  path := none
  tls := s.tls

/-! ## Tokens have one reading -/

variable {s s' : Sequence} {c d : Component} {name : List Char} {front : List Component}
  {rest rest' : List (List Char)}

/-- Its name tells whether a component goes on, so it ends in one place only. -/
theorem cut_component (h : c.tokens ++ rest = d.tokens ++ rest') : c = d ∧ rest = rest' := by
  obtain ⟨name, value, hc⟩ := c
  obtain ⟨name', value', hd⟩ := d
  obtain ⟨rfl, hrest⟩ := List.cons.inj h
  have hsome : value.isSome = value'.isSome := Bool.eq_iff_iff.mpr (hc.trans hd.symm)
  cases value <;> cases value' <;> simp_all

/-- A protocol without its value is no component. -/
theorem lacking_ne_component (h : TakesValue name) : [name] ≠ c.tokens ++ rest := by
  intro heq
  obtain ⟨rfl, hrest⟩ := List.cons.inj heq
  obtain ⟨value, hvalue⟩ := Option.isSome_iff_exists.mp (c.complete.mpr h)
  rw [hvalue] at hrest
  cases hrest

theorem tokens_injective (h : s.tokens = s'.tokens) : s = s' := by
  induction s generalizing s' with
  | nil =>
    cases s' with
    | nil => rfl
    | lacking | cons => cases h
  | lacking name takes =>
    cases s' with
    | nil => cases h
    | lacking name' takes' =>
      cases h
      rfl
    | cons d s' => exact absurd h (lacking_ne_component takes)
  | cons c s ih =>
    cases s' with
    | nil => cases h
    | lacking name' takes' => exact absurd h.symm (lacking_ne_component takes')
    | cons d s' =>
      obtain ⟨rfl, hrest⟩ := cut_component h
      rw [ih hrest]

theorem exists_tokens : ∀ tokens, ∃ s : Sequence, s.tokens = tokens
  | [] => ⟨nil, rfl⟩
  | name :: rest => by
    by_cases htakes : TakesValue name
    · cases rest with
      | nil => exact ⟨lacking name htakes, rfl⟩
      | cons value rest =>
        obtain ⟨s, rfl⟩ := exists_tokens rest
        exact ⟨cons ⟨name, some value, iff_of_true rfl htakes⟩ s, rfl⟩
    · obtain ⟨s, rfl⟩ := exists_tokens rest
      exact ⟨cons ⟨name, none, iff_of_false nofun htakes⟩ s, rfl⟩

theorem tokens_foldr (front : List Component) (s : Sequence) :
    (front.foldr cons s).tokens = front.flatMap Component.tokens ++ s.tokens := by
  induction front with
  | nil => rfl
  | cons c front ih => rw [List.foldr_cons, tokens, ih, List.flatMap_cons, List.append_assoc]

/-- What begins with components is read as these, and then as the rest by itself. -/
theorem exists_foldr (h : s.tokens = front.flatMap Component.tokens ++ rest) :
    ∃ s' : Sequence, s'.tokens = rest ∧ s = front.foldr cons s' := by
  obtain ⟨s', rfl⟩ := exists_tokens rest
  exact ⟨s', rfl, tokens_injective (h.trans (tokens_foldr front s').symm)⟩

end Sequence

/-! ## What a component says -/

theorem not_host_of_port {name : String} (h : name ∈ portProtocols) : name ∉ hostProtocols := by
  have hapart : ∀ p ∈ portProtocols, p ∉ hostProtocols := by decide
  exact hapart name h

theorem not_takes_of_tls {name : String} (h : name ∈ tlsProtocols) :
    name ∉ hostProtocols ∧ name ∉ portProtocols := by
  have hapart : ∀ p ∈ tlsProtocols, p ∉ hostProtocols ∧ p ∉ portProtocols := by decide
  exact hapart name h

/-- A component has a host, has a port or stands alone, and the reader of protocols sees which. -/
theorem Component.kinds (c : Component) :
    (∃ value, c.value = some value ∧ Protocol.ofToken c.name = .host ∧ c.host? = some value ∧
      c.port? = none ∧ c.isTls = false) ∨
    (∃ value, c.value = some value ∧ Protocol.ofToken c.name = .port ∧ c.host? = none ∧
      c.port? = some value ∧ c.isTls = false) ∨
    c.value = none ∧ Protocol.ofToken c.name = (if c.isTls then .tls else .other) ∧
      c.host? = none ∧ c.port? = none := by
  by_cases hhost : String.ofList c.name ∈ hostProtocols
  · obtain ⟨value, hvalue⟩ := Option.isSome_iff_exists.mp (c.complete.mpr (.inl hhost))
    have hport : String.ofList c.name ∉ portProtocols := fun h => not_host_of_port h hhost
    have htls : String.ofList c.name ∉ tlsProtocols := fun h => (not_takes_of_tls h).1 hhost
    exact .inl ⟨value, hvalue, if_pos hhost, (if_pos hhost).trans hvalue, if_neg hport,
      decide_eq_false htls⟩
  · by_cases hport : String.ofList c.name ∈ portProtocols
    · obtain ⟨value, hvalue⟩ := Option.isSome_iff_exists.mp (c.complete.mpr (.inr hport))
      have htls : String.ofList c.name ∉ tlsProtocols := fun h => (not_takes_of_tls h).2 hport
      exact .inr (.inl ⟨value, hvalue, (if_neg hhost).trans (if_pos hport), if_neg hhost,
        (if_pos hport).trans hvalue, decide_eq_false htls⟩)
    · have hvalue : c.value = none := by
        rw [← Option.not_isSome_iff_eq_none, c.complete]
        exact not_or.mpr ⟨hhost, hport⟩
      refine .inr (.inr ⟨hvalue, (if_neg hhost).trans ((if_neg hport).trans ?_), if_neg hhost, if_neg hport⟩)
      simp [isTls, tlsProtocols]

/-! ## Reading a sequence -/

section

variable {raw name value : List Char} {rest : List (List Char)} {m : Multiaddr}

theorem readProtocols_cons_host (h : Protocol.ofToken name = .host) :
    readProtocols raw (name :: value :: rest) m =
      readProtocols raw rest { m with host := some (lower value) } := by
  rw [readProtocols, h]

theorem readProtocols_cons_port (h : Protocol.ofToken name = .port) :
    readProtocols raw (name :: value :: rest) m =
      readPort value >>= fun port => readProtocols raw rest { m with port := some port } := by
  rw [readProtocols, h]

theorem readProtocols_cons_alone {tls : Bool}
    (h : Protocol.ofToken name = if tls then .tls else .other) :
    readProtocols raw (name :: rest) m = readProtocols raw rest { m with tls := m.tls || tls } := by
  cases rest with
  | nil => cases tls <;> simp [readProtocols, h]
  | cons next rest => cases tls <;> simp [readProtocols, h]

theorem readProtocols_lacking (h : TakesValue name) (m' : Multiaddr) :
    readProtocols raw [name] m ≠ .ok m' := by
  intro hread
  rw [readProtocols] at hread
  by_cases hhost : String.ofList name ∈ hostProtocols
  · have htoken : Protocol.ofToken name = .host := if_pos hhost
    rw [htoken] at hread
    cases hread
  · have htoken : Protocol.ofToken name = .port := (if_neg hhost).trans (if_pos (h.resolve_left hhost))
    rw [htoken] at hread
    cases hread

end

namespace Sequence

theorem hosts_cons (c : Component) (s : Sequence) : (cons c s).hosts = c.host?.toList ++ s.hosts := by
  rw [hosts, components, List.filterMap_cons]
  cases c.host? <;> rfl

theorem ports_cons (c : Component) (s : Sequence) : (cons c s).ports = c.port?.toList ++ s.ports := by
  rw [ports, components, List.filterMap_cons]
  cases c.port? <;> rfl

theorem tls_cons (c : Component) (s : Sequence) : (cons c s).tls = (c.isTls || s.tls) := rfl

/-- What was said before, overridden by what the sequence says. -/
def added (s : Sequence) (m : Multiaddr) : Multiaddr where
  host := (s.hosts.getLast?.map lower).or m.host
  port := s.lastPort?.or m.port
  tls := m.tls || s.tls

section

variable {c : Component} {s : Sequence} {m : Multiaddr} {value : List Char}

theorem added_cons_host (hhost : c.host? = some value) (hport : c.port? = none) (htls : c.isTls = false) :
    (cons c s).added m = s.added { m with host := some (lower value) } := by
  have hlast : ((value :: s.hosts).getLast?.map lower).or m.host =
      (s.hosts.getLast?.map lower).or (some (lower value)) := by
    rw [List.getLast?_cons]
    cases s.hosts.getLast? <;> rfl
  simpa [added, lastPort?, hosts_cons, ports_cons, tls_cons, hhost, hport, htls] using hlast

theorem added_cons_port {port : Nat} (hhost : c.host? = none) (hport : c.port? = some value)
    (htls : c.isTls = false) (hread : readUnsigned? portMax value = some port) (hfit : s.PortsFit) :
    (cons c s).added m = s.added { m with port := some port } := by
  have hlast : ((value :: s.ports).getLast?.bind (readUnsigned? portMax)).or m.port =
      (s.ports.getLast?.bind (readUnsigned? portMax)).or (some port) := by
    rw [List.getLast?_cons]
    cases hports : s.ports.getLast? with
    | none => simp [hread]
    | some digits =>
      obtain ⟨later, hlater, -⟩ := hfit digits (List.mem_of_getLast? hports)
      simp [hlater]
  simpa [added, lastPort?, hosts_cons, ports_cons, tls_cons, hhost, hport, htls] using hlast

theorem added_cons_alone (hhost : c.host? = none) (hport : c.port? = none) :
    (cons c s).added m = s.added { m with tls := m.tls || c.isTls } := by
  simp [added, lastPort?, hosts_cons, ports_cons, tls_cons, hhost, hport, Bool.or_assoc]

end

/-- The reader of protocols accepts tokens unless a value is missing or a port does not fit. -/
theorem readProtocols_eq_ok_iff {raw : List Char} (s : Sequence) {m m' : Multiaddr} :
    readProtocols raw s.tokens m = .ok m' ↔ s.Whole ∧ s.PortsFit ∧ m' = s.added m := by
  -- What was said so far is in `m`: the induction needs it free, as each component overrides it.
  induction s generalizing m with
  | nil =>
    simp [tokens, readProtocols, Whole, PortsFit, ports, components, added, hosts, lastPort?, tls, eq_comm]
  | lacking name takes => simpa [tokens, Whole] using readProtocols_lacking takes m'
  | cons c s ih =>
    rw [tokens, Component.tokens, PortsFit, ports_cons]
    rcases c.kinds with ⟨value, hvalue, htoken, hhost, hport, htls⟩ |
      ⟨value, hvalue, htoken, hhost, hport, htls⟩ | ⟨hvalue, htoken, hhost, hport⟩
    · rw [hvalue, Option.toList_some, List.cons_append, List.singleton_append,
        readProtocols_cons_host htoken, ih, added_cons_host hhost hport htls, hport]
      rfl
    · rw [hvalue, Option.toList_some, List.cons_append, List.singleton_append,
        readProtocols_cons_port htoken, bind_eq_ok, hport, Option.toList_some, List.singleton_append,
        List.forall_mem_cons]
      constructor
      · rintro ⟨port, hread, hrest⟩
        obtain ⟨hwhole, hfit, hm'⟩ := ih.mp hrest
        have hvalid := readPort_ok_iff.mp hread
        refine ⟨hwhole, ⟨⟨port, hvalid⟩, hfit⟩, hm'.trans ?_⟩
        exact (added_cons_port hhost hport htls hvalid.1 hfit).symm
      · rintro ⟨hwhole, ⟨⟨port, hvalid⟩, hfit⟩, hm'⟩
        refine ⟨port, readPort_ok_iff.mpr hvalid, ih.mpr ⟨hwhole, hfit, ?_⟩⟩
        exact hm'.trans (added_cons_port hhost hport htls hvalid.1 hfit)
    · rw [hvalue, Option.toList_none, List.cons_append, List.nil_append,
        readProtocols_cons_alone htoken, ih, added_cons_alone hhost hport, hport]
      rfl

end Sequence

/-! ## Texts of multiaddrs -/

def tokensOf (text : List Char) : List (List Char) := (splitAt '/' text).filter (· ≠ [])

theorem tokensOf_join (before after : List Char) :
    tokensOf (before ++ '/' :: after) = tokensOf before ++ tokensOf after := by
  rw [tokensOf, splitAt_join, List.filter_append]
  rfl

theorem tokensOf_word {word : List Char} (nonempty : word ≠ []) (slash : '/' ∉ word) :
    tokensOf word = [word] := by
  rw [tokensOf, splitAt_of_notMem slash, List.filter_singleton]
  simp [nonempty]

theorem readMultiaddr_eq_ok_iff {text : List Char} {s : Sequence} (hs : s.tokens = tokensOf text)
    (a : Address) : readMultiaddr text = .ok a ↔
      s.Whole ∧ s.PortsFit ∧ ∃ host, s.hosts.getLast? = some host ∧ a = s.address host := by
  have hread : ∀ m, readProtocols text (tokensOf text) {} = .ok m ↔
      s.Whole ∧ s.PortsFit ∧ m = s.added {} := fun m => hs ▸ s.readProtocols_eq_ok_iff
  change readProtocols text (tokensOf text) {} >>= _ = _ ↔ _
  rw [bind_eq_ok]
  constructor
  · rintro ⟨m, hm, ha⟩
    obtain ⟨hwhole, hfit, rfl⟩ := (hread m).mp hm
    cases hhost : s.hosts.getLast? with
    | none =>
      simp only [Sequence.added, hhost, Option.map_none, Option.none_or] at ha
      cases ha
    | some host =>
      simp only [Sequence.added, hhost, Option.map_some, Option.or_none, Bool.false_or] at ha
      cases ha
      exact ⟨hwhole, hfit, host, rfl, rfl⟩
  · rintro ⟨hwhole, hfit, host, hhost, rfl⟩
    refine ⟨_, (hread _).mpr ⟨hwhole, hfit, rfl⟩, ?_⟩
    simp only [Sequence.added, hhost, Option.map_some, Option.or_none, Bool.false_or]
    rfl

/-- A slash is written twice or at the end, or a word that is no protocol is put where a protocol
may stand. -/
inductive Padded : List Char → List Char → Prop
  | repeated {before after : List Char} :
      Padded (before ++ '/' :: after) (before ++ '/' :: '/' :: after)
  | appended {text : List Char} : Padded text (text ++ ['/'])
  | word {before word after : List Char} {front : List Component}
      (whole : tokensOf before = front.flatMap Component.tokens)
      (ends : ∀ c ∈ after.head?, c = '/') (nonempty : word ≠ []) (slash : '/' ∉ word)
      (unknown : String.ofList word ∉ hostProtocols ++ portProtocols ++ tlsProtocols) :
      Padded (before ++ after) (before ++ '/' :: (word ++ after))

theorem Padded.head?_eq {text text' : List Char} (h : Padded text text') (hslash : text.head? = some '/') :
    text'.head? = some '/' := by
  cases h with
  | @repeated before after => cases before <;> simp_all
  | appended => cases text <;> simp_all
  | @word before _ after => cases before <;> simp_all

namespace Sequence

/-- Neither sequence says anything that the other does not. -/
structure SaysSame (s s' : Sequence) : Prop where
  whole : s.Whole ↔ s'.Whole
  hosts : s.hosts = s'.hosts
  ports : s.ports = s'.ports
  tls : s.tls = s'.tls

variable {s s' : Sequence}

theorem SaysSame.refl (s : Sequence) : s.SaysSame s := ⟨.rfl, rfl, rfl, rfl⟩

theorem SaysSame.cons (h : s.SaysSame s') (c : Component) : (cons c s).SaysSame (.cons c s') := by
  refine ⟨h.whole, ?_, ?_, ?_⟩
  · rw [hosts_cons, hosts_cons, h.hosts]
  · rw [ports_cons, ports_cons, h.ports]
  · rw [tls_cons, tls_cons, h.tls]

theorem SaysSame.foldr (h : s.SaysSame s') (front : List Component) :
    (front.foldr .cons s).SaysSame (front.foldr .cons s') := by
  induction front with
  | nil => exact h
  | cons c front ih => exact ih.cons c

/-- A word that is no protocol says nothing. -/
theorem saysSame_cons {word : List Char} (hvalue : ¬ TakesValue word)
    (htls : String.ofList word ∉ tlsProtocols) (s : Sequence) :
    s.SaysSame (.cons ⟨word, none, iff_of_false nofun hvalue⟩ s) := by
  rw [TakesValue, not_or] at hvalue
  refine ⟨.rfl, ?_, ?_, ?_⟩
  · rw [hosts_cons, Component.host?, if_neg hvalue.1]
    rfl
  · rw [ports_cons, Component.port?, if_neg hvalue.2]
    rfl
  · simp [tls_cons, Component.isTls, htls]

theorem SaysSame.address_eq (h : s.SaysSame s') (host : List Char) : s.address host = s'.address host := by
  rw [address, address, lastPort?, lastPort?, h.ports, h.tls]

end Sequence

/-- The tokens after a word are read as they are without it. -/
theorem Padded.exists_saysSame {text text' : List Char} (h : Padded text text') {s : Sequence}
    (hs : s.tokens = tokensOf text) : ∃ s' : Sequence, s'.tokens = tokensOf text' ∧ s.SaysSame s' := by
  cases h with
  | @repeated before after =>
    refine ⟨s, ?_, .refl s⟩
    rw [hs, tokensOf_join, tokensOf_join]
    exact congrArg (tokensOf before ++ ·) (tokensOf_join [] after).symm
  | appended =>
    refine ⟨s, ?_, .refl s⟩
    rw [hs, tokensOf_join]
    simp [tokensOf, splitAt]
  | @word before word after front whole ends nonempty slash unknown =>
    simp only [List.mem_append, not_or] at unknown
    have hvalue : ¬ TakesValue word := not_or.mpr unknown.1
    obtain ⟨rest, hrest, hword⟩ : ∃ rest, tokensOf (before ++ after) = tokensOf before ++ rest ∧
        tokensOf (word ++ after) = word :: rest := by
      cases after with
      | nil => exact ⟨[], by simp, by rw [List.append_nil, tokensOf_word nonempty slash]⟩
      | cons c after =>
        obtain rfl := ends c rfl
        refine ⟨tokensOf after, tokensOf_join before after, ?_⟩
        rw [tokensOf_join, tokensOf_word nonempty slash, List.singleton_append]
    -- In front of the word no value is missing, so what follows is read as it was without it.
    rw [hrest, whole] at hs
    obtain ⟨s', hs', rfl⟩ := Sequence.exists_foldr hs
    refine ⟨front.foldr .cons (.cons ⟨word, none, iff_of_false nofun hvalue⟩ s'), ?_,
      (Sequence.saysSame_cons hvalue unknown.2 s').foldr front⟩
    rw [Sequence.tokens_foldr, tokensOf_join, whole, hword, ← hs']
    rfl

theorem Padded.readMultiaddr_iff {text text' : List Char} (h : Padded text text') (a : Address) :
    readMultiaddr text' = .ok a ↔ readMultiaddr text = .ok a := by
  obtain ⟨s, hs⟩ := Sequence.exists_tokens (tokensOf text)
  obtain ⟨s', hs', hsame⟩ := h.exists_saysSame hs
  rw [readMultiaddr_eq_ok_iff hs, readMultiaddr_eq_ok_iff hs', Sequence.PortsFit, Sequence.PortsFit,
    hsame.whole, hsame.ports, hsame.hosts]
  simp only [hsame.address_eq]

/-! ## Main result -/

/-- The tokens of a multiaddr are one sequence of components. The multiaddr is accepted exactly if no
value is missing, all ports fit and there is a host, and then the last host and the last port count.
Any number of further slashes and unknown words changes nothing. -/
theorem multiaddr_is_read_in_sequence (urls : List Char → Except UrlError Url) {raw : String}
    (hslash : (trim raw.toList).head? = some '/') :
    (∃! s : Sequence, s.tokens = tokensOf (trim raw.toList)) ∧
    (∀ s : Sequence, s.tokens = tokensOf (trim raw.toList) → ∀ a, Address.parse urls raw = .ok a ↔
      s.Whole ∧ s.PortsFit ∧ ∃ host, s.hosts.getLast? = some host ∧ a = s.address host) ∧
    ∀ raw' : String, Relation.ReflTransGen Padded (trim raw.toList) (trim raw'.toList) →
      ∀ a, Address.parse urls raw' = .ok a ↔ Address.parse urls raw = .ok a := by
  have hparse : ∀ raw : String, (trim raw.toList).head? = some '/' →
      Address.parse urls raw = readMultiaddr (trim raw.toList) := fun _ hslash =>
    Address.parse_multiaddr hslash
  refine ⟨?_, fun s hs a => ?_, fun raw' hpadded a => ?_⟩
  · obtain ⟨s, hs⟩ := Sequence.exists_tokens (tokensOf (trim raw.toList))
    exact ⟨s, hs, fun s' hs' => Sequence.tokens_injective (hs'.trans hs.symm)⟩
  · rw [hparse raw hslash, readMultiaddr_eq_ok_iff hs]
  · have hkept : ∀ text', Relation.ReflTransGen Padded (trim raw.toList) text' → text'.head? = some '/' ∧
        (readMultiaddr text' = .ok a ↔ readMultiaddr (trim raw.toList) = .ok a) := by
      intro text' hpadded
      induction hpadded with
      | refl => exact ⟨hslash, .rfl⟩
      | tail _ hstep ih => exact ⟨hstep.head?_eq ih.1, (hstep.readMultiaddr_iff a).trans ih.2⟩
    obtain ⟨hslash', hread⟩ := hkept _ hpadded
    rw [hparse raw hslash, hparse raw' hslash', hread]

/-- A value may be the name of a protocol, and of two hosts or ports the later one counts. -/
theorem later_host_is_named_udp :
    (trim "//dns/Node.example/tcp/80/ip4/UDP/tls/udp/+9090/ ".toList).head? = some '/' ∧
      ∀ raw ∈ ["//dns/Node.example/tcp/80/ip4/UDP/tls/udp/+9090/ ",
          "//dns/Node.example/p2p/tcp/80/ip4/UDP/tls/udp/+9090/ "],
        Address.parse (readUrl asciiNames) raw = .ok ⟨"udp", none, none, some 9090, none, true⟩ := by
  have hslash : (trim "//dns/Node.example/tcp/80/ip4/UDP/tls/udp/+9090/ ".toList).head? = some '/' := by
    decide
  obtain ⟨-, haccepted, hpadded⟩ := multiaddr_is_read_in_sequence (readUrl asciiNames) hslash
  let dns : Component := ⟨"dns".toList, some "Node.example".toList, by decide⟩
  let s : Sequence := .cons dns <| .cons ⟨"tcp".toList, some "80".toList, by decide⟩ <|
    .cons ⟨"ip4".toList, some "UDP".toList, by decide⟩ <| .cons ⟨"tls".toList, none, by decide⟩ <|
    .cons ⟨"udp".toList, some "+9090".toList, by decide⟩ .nil
  have hfit : s.PortsFit := by
    have hports : s.ports = ["80".toList, "+9090".toList] := by decide
    rw [Sequence.PortsFit, hports]
    simp only [List.forall_mem_cons]
    exact ⟨⟨80, by decide⟩, ⟨9090, by decide⟩, nofun⟩
  have hread := (haccepted s (by decide) _).mpr ⟨trivial, hfit, "UDP".toList, by decide, rfl⟩
  have haddress : s.address "UDP".toList = ⟨"udp", none, none, some 9090, none, true⟩ := by decide
  rw [haddress] at hread
  have hbefore : tokensOf "//dns/Node.example".toList = [dns].flatMap Component.tokens := by decide
  let after : List Char := '/' :: "tcp/80/ip4/UDP/tls/udp/+9090/".toList
  have hafter : ∀ c ∈ after.head?, c = '/' := fun c hc => (Option.some.inj hc).symm
  have hword : Padded ("//dns/Node.example".toList ++ after)
      ("//dns/Node.example".toList ++ '/' :: ("p2p".toList ++ after)) :=
    .word hbefore hafter (by decide) (by decide) (by decide)
  have hpad := (hpadded "//dns/Node.example/p2p/tcp/80/ip4/UDP/tls/udp/+9090/ " (.single hword) _).mpr hread
  exact ⟨hslash, List.forall_mem_cons.mpr ⟨hread, List.forall_mem_singleton.mpr hpad⟩⟩

end FleetHealth.Net
