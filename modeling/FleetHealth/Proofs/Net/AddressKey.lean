import FleetHealth.Net.Address

/-! # Keys of addresses

A host has no slash in it and a path begins with one, so the first slash after the scheme
is where the path begins in a key. Before it stand the ports, which are digits after an
equals sign; so a key is read from its end, however much the host looks like one.
-/
namespace FleetHealth.Net

open Text Number

structure Address.WellFormed (a : Address) : Prop where
  host : '/' ∉ a.host.toList
  path : ∀ path, a.path = some path → ∃ rest, path.toList = '/' :: rest

/-- A text up to the first separator is determined by the whole. -/
theorem append_inj_at {sep : Char} {front front' back back' : List Char}
    (hfront : sep ∉ front) (hfront' : sep ∉ front')
    (hback : back = [] ∨ ∃ rest, back = sep :: rest)
    (hback' : back' = [] ∨ ∃ rest, back' = sep :: rest)
    (h : front ++ back = front' ++ back') : front = front' ∧ back = back' := by
  have hcut : ∀ {front back : List Char}, sep ∉ front → (back = [] ∨ ∃ rest, back = sep :: rest) →
      (front ++ back).takeWhile (· ≠ sep) = front := by
    intro front back hfront hback
    rw [List.takeWhile_append_of_pos]
    · rcases hback with rfl | ⟨rest, rfl⟩ <;> simp
    · intro c hc
      simpa using fun heq : c = sep => hfront (heq ▸ hc)
  have hsame : front = front' := by rw [← hcut hfront hback, h, hcut hfront' hback']
  subst hsame
  exact ⟨rfl, List.append_cancel_left h⟩

/-- A text is determined up to its last equals sign when only digits follow. -/
theorem append_inj_at_end {before before' digits digits' : List Char}
    (hdigits : '=' ∉ digits) (hdigits' : '=' ∉ digits')
    (h : before ++ '=' :: digits = before' ++ '=' :: digits') :
    before = before' ∧ digits = digits' := by
  have hreverse := congrArg List.reverse h
  simp only [List.reverse_append, List.reverse_cons, List.append_assoc, List.singleton_append]
    at hreverse
  obtain ⟨hd, hb⟩ := append_inj_at (by simpa using hdigits) (by simpa using hdigits')
    (.inr ⟨_, rfl⟩) (.inr ⟨_, rfl⟩) hreverse
  exact ⟨List.reverse_inj.mp (List.cons_inj_right _ |>.mp hb), List.reverse_inj.mp hd⟩

theorem decimal_injective {m n : Nat} (h : decimal m = decimal n) : m = n := by
  rw [← Nat.ofDigitChars_ten_toDigits (n := m), ← Nat.ofDigitChars_ten_toDigits (n := n)]
  exact congrArg (Nat.ofDigitChars 10 · 0) h

namespace Address

theorem notMem_portText {c : Char} (hc : c.isDigit = false) (port : Option Nat) :
    c ∉ portText port := by
  cases port with
  | none => exact List.not_mem_nil
  | some p =>
    intro hmem
    have hdigit := Nat.isDigit_of_mem_toDigits (by decide) (by decide) hmem
    rw [hc] at hdigit
    cases hdigit

theorem portText_injective {p q : Option Nat} (h : portText p = portText q) : p = q := by
  cases p with
  | none =>
    cases q with
    | none => rfl
    | some q => exact absurd h.symm Nat.toDigits_ne_nil
  | some p =>
    cases q with
    | none => exact absurd h Nat.toDigits_ne_nil
    | some q => rw [decimal_injective h]

theorem pathText_injective {a b : Address} (ha : a.WellFormed) (hb : b.WellFormed)
    (h : a.pathText = b.pathText) : a.path = b.path := by
  unfold pathText at h
  cases hpath : a.path with
  | none =>
    cases hpath' : b.path with
    | none => rfl
    | some q =>
      obtain ⟨rest, hq⟩ := hb.path q hpath'
      simp [hpath, hpath', hq] at h
  | some p =>
    cases hpath' : b.path with
    | none =>
      obtain ⟨rest, hp⟩ := ha.path p hpath
      simp [hpath, hpath', hp] at h
    | some q =>
      simp only [hpath, hpath', Option.getD_some] at h
      rw [String.toList_inj.mp h]

def keyStem (a : Address) : List Char :=
  a.host.toList ++ "|rpc=".toList ++ portText a.rpcPort ++ "|metrics=".toList
    ++ portText a.metricsPort ++ "|peer=".toList ++ portText a.peerPort

theorem key_eq (a : Address) :
    a.key = String.ofList (a.schemeText ++ (a.keyStem ++ ['|'] ++ a.pathText)) := by
  simp [key, keyStem]

theorem schemeText_inj {a b : Address} {s t : List Char}
    (h : a.schemeText ++ s = b.schemeText ++ t) : a.tls = b.tls ∧ s = t := by
  cases ha : a.tls <;> cases hb : b.tls <;> simp [schemeText, ha, hb] at h ⊢ <;> exact h

theorem keyStem_injective {a b : Address} (h : a.keyStem = b.keyStem) :
    a.host = b.host ∧ a.rpcPort = b.rpcPort ∧ a.metricsPort = b.metricsPort
      ∧ a.peerPort = b.peerPort := by
  have hdigits : ∀ port, '=' ∉ portText port := notMem_portText (by decide)
  have hlabel : ∀ (before label digits : List Char),
      before ++ (label ++ ['=']) ++ digits = before ++ label ++ '=' :: digits := by simp
  have hpeer := append_inj_at_end (hdigits _) (hdigits _)
    ((hlabel _ "|peer".toList _).symm.trans (h.trans (hlabel _ "|peer".toList _)))
  have hmetrics := append_inj_at_end (hdigits _) (hdigits _)
    ((hlabel _ "|metrics".toList _).symm.trans
      ((List.append_cancel_right hpeer.1).trans (hlabel _ "|metrics".toList _)))
  have hrpc := append_inj_at_end (hdigits _) (hdigits _)
    ((hlabel _ "|rpc".toList _).symm.trans
      ((List.append_cancel_right hmetrics.1).trans (hlabel _ "|rpc".toList _)))
  exact ⟨String.toList_inj.mp (List.append_cancel_right hrpc.1), portText_injective hrpc.2,
    portText_injective hmetrics.2, portText_injective hpeer.2⟩

theorem WellFormed.slash_notMem_keyStem {a : Address} (h : a.WellFormed) :
    '/' ∉ a.keyStem ++ ['|'] := by
  have hdigits : ∀ port, '/' ∉ portText port := notMem_portText (by decide)
  simp [keyStem, h.host, hdigits]

theorem WellFormed.pathText_cases {a : Address} (h : a.WellFormed) :
    a.pathText = [] ∨ ∃ rest, a.pathText = '/' :: rest := by
  cases hpath : a.path with
  | none => exact .inl (by simp [pathText, hpath])
  | some path =>
    obtain ⟨rest, hrest⟩ := h.path path hpath
    exact .inr ⟨rest, by simp [pathText, hpath, hrest]⟩

/-- Addresses with one key are the same. -/
theorem WellFormed.eq_of_key_eq {a b : Address} (ha : a.WellFormed) (hb : b.WellFormed)
    (h : a.key = b.key) : a = b := by
  rw [key_eq, key_eq, String.ofList_inj] at h
  obtain ⟨htls, hrest⟩ := schemeText_inj h
  obtain ⟨hstem, hpathText⟩ := append_inj_at ha.slash_notMem_keyStem hb.slash_notMem_keyStem
    ha.pathText_cases hb.pathText_cases hrest
  obtain ⟨hhost, hrpc, hmetrics, hpeer⟩ := keyStem_injective (List.append_cancel_right hstem)
  have hpath := pathText_injective ha hb hpathText
  cases a
  cases b
  simp_all

end Address

end FleetHealth.Net
