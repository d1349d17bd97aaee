import FleetHealth.Exposition.Sample
import FleetHealth.Proofs.Number.DecimalTexts
import FleetHealth.Proofs.Text.Pieces
import Mathlib.Tactic.SplitIfs

/-! # The words of a sample line

Names, literals and timestamps are made of visible ASCII characters up to `z`: none of them is
blank, and none is a brace. A line that is made of such words is cut where its words end.
-/
namespace FleetHealth.Exposition

open Text Number

def isPlain (c : Char) : Bool := '!'.toNat ≤ c.toNat && c.toNat ≤ 'z'.toNat

theorem isPlain_iff {c : Char} : isPlain c = true ↔ 0x21 ≤ c.toNat ∧ c.toNat ≤ 0x7A := by
  simp [isPlain]

theorem isBlank_of_isPlain {c : Char} (h : isPlain c = true) : isBlank c = false := by
  rw [isPlain_iff] at h
  simp [isBlank, blankRanges]
  omega

/-! ## Names -/

def isLabelStart (c : Char) : Bool := c.isAlpha || c = '_'

def isSampleStart (c : Char) : Bool := isLabelStart c || c = ':'

def isName (start : Char → Bool) : List Char → Bool
  | [] => false
  | c :: rest => start c && rest.all fun d => start d || isDigit d

theorem isPlain_of_isDigit {c : Char} (h : isDigit c = true) : isPlain c = true := by
  simp only [isDigit, Bool.and_eq_true, decide_eq_true_eq, Char.le_def, UInt32.le_iff_toNat_le] at h
  exact isPlain_iff.mpr ⟨Nat.le_trans (by decide) h.1, Nat.le_trans h.2 (by decide)⟩

theorem isPlain_of_isUpper {c : Char} (h : c.isUpper = true) : isPlain c = true := by
  unfold Char.isUpper at h
  simp only [decide_eq_true_eq, ge_iff_le, UInt32.le_iff_toNat_le] at h
  exact isPlain_iff.mpr ⟨Nat.le_trans (by decide) h.1, Nat.le_trans h.2 (by decide)⟩

theorem isPlain_of_isLower {c : Char} (h : c.isLower = true) : isPlain c = true := by
  unfold Char.isLower at h
  simp only [Bool.and_eq_true, decide_eq_true_eq, ge_iff_le, UInt32.le_iff_toNat_le] at h
  exact isPlain_iff.mpr ⟨Nat.le_trans (by decide) h.1, Nat.le_trans h.2 (by decide)⟩

theorem isSampleStart_of_isLabelStart {c : Char} (h : isLabelStart c = true) :
    isSampleStart c = true := by
  simp [isSampleStart, h]

theorem isPlain_of_isSampleStart {c : Char} (h : isSampleStart c = true) : isPlain c = true := by
  simp only [isSampleStart, isLabelStart, Bool.or_eq_true, decide_eq_true_eq] at h
  rcases h with (h | rfl) | rfl
  · unfold Char.isAlpha at h
    rcases Bool.or_eq_true_iff.mp h with hupper | hlower
    · exact isPlain_of_isUpper hupper
    · exact isPlain_of_isLower hlower
  · rfl
  · rfl

theorem isPlain_of_isName {s : List Char} (h : isName isSampleStart s = true) :
    ∀ c ∈ s, isPlain c = true := by
  cases s with
  | nil => cases h
  | cons first rest =>
    rw [isName, Bool.and_eq_true] at h
    intro c hc
    rcases List.mem_cons.mp hc with rfl | hc
    · exact isPlain_of_isSampleStart h.1
    · have hnext := List.all_eq_true.mp h.2 c hc
      rw [Bool.or_eq_true] at hnext
      exact hnext.elim isPlain_of_isSampleStart isPlain_of_isDigit

/-- The name of a label is a name for a sample too. -/
theorem isName_of_label {s : List Char} (h : isName isLabelStart s = true) :
    isName isSampleStart s = true := by
  cases s with
  | nil => cases h
  | cons first rest =>
    simp only [isName, Bool.and_eq_true, List.all_eq_true, Bool.or_eq_true] at h ⊢
    exact ⟨isSampleStart_of_isLabelStart h.1,
      fun c hc => (h.2 c hc).imp_left isSampleStart_of_isLabelStart⟩

/-! ## Literals -/

theorem mem_cutSign {s : List Char} {c : Char} (h : c ∈ s) :
    c ∈ (cutSign s).2 ∨ c = '-' ∨ c = '+' := by
  unfold cutSign
  split
  · exact (List.mem_cons.mp h).elim (fun h => .inr (.inl h)) .inl
  · exact (List.mem_cons.mp h).elim (fun h => .inr (.inr h)) .inl
  · exact .inl h

theorem isPlain_of_cutSign {s : List Char} (h : ∀ c ∈ (cutSign s).2, isPlain c = true) :
    ∀ c ∈ s, isPlain c = true := by
  intro c hc
  rcases mem_cutSign hc with hc | rfl | rfl
  · exact h c hc
  · rfl
  · rfl

theorem isPlain_of_readDigits? {s : List Char} {n : Nat} (h : readDigits? s = some n) :
    ∀ c ∈ s, isPlain c = true := by
  unfold readDigits? at h
  split at h
  · next hdigits =>
    intro c hc
    exact isPlain_of_isDigit (List.all_eq_true.mp hdigits.2 c hc)
  · cases h

theorem isPlain_of_readExponent? {s : List Char} {e : Int} (h : readExponent? s = some e) :
    ∀ c ∈ s, isPlain c = true := by
  cases s with
  | nil => rintro _ ⟨⟩
  | cons letter digits =>
    rw [readExponent?] at h
    by_cases hletter : (letter = 'e' || letter = 'E') = true
    · rw [if_pos hletter] at h
      obtain ⟨_, hread, -⟩ := Option.map_eq_some_iff.mp h
      obtain ⟨n, hdigits, -⟩ := Option.bind_eq_some_iff.mp hread
      intro c hc
      rcases List.mem_cons.mp hc with rfl | hc
      · simp only [Bool.or_eq_true, decide_eq_true_eq] at hletter
        rcases hletter with rfl | rfl <;> rfl
      · exact isPlain_of_cutSign (isPlain_of_readDigits? hdigits) c hc
    · rw [if_neg hletter] at h
      cases h

theorem isPlain_of_dropWhile_isDigit {s : List Char}
    (h : ∀ c ∈ s.dropWhile isDigit, isPlain c = true) : ∀ c ∈ s, isPlain c = true := by
  intro c hc
  rw [← List.takeWhile_append_dropWhile (p := isDigit) (l := s), List.mem_append] at hc
  rcases hc with hc | hc
  · exact isPlain_of_isDigit (List.all_eq_true.mp List.all_takeWhile c hc)
  · exact h c hc

theorem isPlain_of_readMagnitude? {s : List Char} {x : Binary64} (h : readMagnitude? s = some x) :
    ∀ c ∈ s, isPlain c = true := by
  apply isPlain_of_dropWhile_isDigit
  unfold readMagnitude? at h
  dsimp only at h
  split at h
  · next tail htail =>
    split_ifs at h
    obtain ⟨e, hexponent, -⟩ := Option.map_eq_some_iff.mp h
    rw [htail]
    intro c hc
    rcases List.mem_cons.mp hc with rfl | hc
    · rfl
    · exact isPlain_of_dropWhile_isDigit (isPlain_of_readExponent? hexponent) c hc
  · split_ifs at h
    obtain ⟨e, hexponent, -⟩ := Option.map_eq_some_iff.mp h
    exact isPlain_of_readExponent? hexponent

theorem isPlain_of_toLower {c : Char} (h : isPlain c.toLower = true) : isPlain c = true := by
  by_cases hupper : c.isUpper
  · exact isPlain_of_isUpper hupper
  · have hsame : c.toLower = c := by
      unfold Char.toLower
      unfold Char.isUpper at hupper
      grind
    rwa [hsame] at h

theorem isPlain_of_map_toLower {s word : List Char} (h : s.map Char.toLower = word)
    (hword : word.all isPlain = true) : ∀ c ∈ s, isPlain c = true := by
  intro c hc
  apply isPlain_of_toLower
  apply List.all_eq_true.mp hword
  rw [← h]
  exact List.mem_map_of_mem hc

theorem isPlain_of_readDouble? {s : List Char} {x : Binary64} (h : readDouble? s = some x) :
    ∀ c ∈ s, isPlain c = true := by
  unfold readDouble? at h
  dsimp only at h
  obtain ⟨magnitude, hmagnitude, -⟩ := Option.map_eq_some_iff.mp h
  apply isPlain_of_cutSign
  split_ifs at hmagnitude with hinfinite hnan
  · simp only [Bool.or_eq_true, decide_eq_true_eq] at hinfinite
    rcases hinfinite with hword | hword
    · exact isPlain_of_map_toLower hword (by decide)
    · exact isPlain_of_map_toLower hword (by decide)
  · exact isPlain_of_map_toLower hnan (by decide)
  · exact isPlain_of_readMagnitude? hmagnitude

theorem ne_nil_of_readDouble? {s : List Char} {x : Binary64} (h : readDouble? s = some x) : s ≠ [] := by
  rintro rfl
  cases h

theorem readMagnitude?_decimal (n : Nat) : readMagnitude? (decimal n) = some (.ofNat n) := by
  have hdigits : ∀ c ∈ decimal n, isDigit c = true := fun c hc => isDigit_of_mem_decimal hc
  have htake : (decimal n).takeWhile isDigit = decimal n := List.takeWhile_eq_self_iff.mpr hdigits
  have hdrop : (decimal n).dropWhile isDigit = [] := List.dropWhile_eq_nil_iff.mpr hdigits
  simp [readMagnitude?, htake, hdrop, decimal_ne_nil, readExponent?, Binary64.ofNat]

/-- Digits are not a word for a number. -/
theorem lower_decimal_ne {n : Nat} {word : List Char} {c : Char} (hc : c ∈ word)
    (hother : isDigit c = false) : (decimal n).map Char.toLower ≠ word := by
  rintro rfl
  obtain ⟨d, hd, rfl⟩ := List.mem_map.mp hc
  rw [toLower_keeps isDigit (by decide), isDigit_of_mem_decimal hd] at hother
  cases hother

theorem readDouble?_decimal (n : Nat) : readDouble? (decimal n) = some (.ofNat n) := by
  have hsign : cutSign (decimal n) = (false, decimal n) := by simpa using cutSign_decimal n []
  have hinf : (decimal n).map Char.toLower ≠ "inf".toList :=
    lower_decimal_ne (c := 'i') (by decide) (by decide)
  have hinfinity : (decimal n).map Char.toLower ≠ "infinity".toList :=
    lower_decimal_ne (c := 'i') (by decide) (by decide)
  have hnan : (decimal n).map Char.toLower ≠ "nan".toList :=
    lower_decimal_ne (c := 'n') (by decide) (by decide)
  unfold readDouble?
  rw [hsign]
  simp only [hinf, hinfinity, hnan, decide_false, Bool.or_self, if_false, readMagnitude?_decimal,
    Option.map_some, Bool.false_eq_true]

/-! ## Cutting at blanks -/

theorem trim_of_isPlain {s : List Char} (h : ∀ c ∈ s, isPlain c = true) : trim s = s := by
  apply trim_eq_self
  · exact fun c hc => isBlank_of_isPlain (h c (List.mem_of_mem_head? hc))
  · exact fun c hc => isBlank_of_isPlain (h c (List.mem_of_mem_getLast? hc))

/-- A word ends before the next blank. -/
theorem word_append {word rest : List Char} (plain : ∀ c ∈ word, isPlain c = true)
    (ends : ∀ c ∈ rest.head?, isBlank c = true) :
    (word ++ rest).takeWhile (fun c => !isBlank c) = word ∧
      (word ++ rest).dropWhile (fun c => !isBlank c) = rest := by
  have hword : ∀ c ∈ word, (!isBlank c) = true := fun c hc => by simp [isBlank_of_isPlain (plain c hc)]
  rw [List.takeWhile_append_of_pos hword, List.dropWhile_append_of_pos hword]
  cases rest with
  | nil => simp
  | cons c rest => simp [ends c rfl]

theorem firstWord?_append {gap word rest : List Char} (blank : ∀ c ∈ gap, isBlank c = true)
    (nonempty : word ≠ []) (plain : ∀ c ∈ word, isPlain c = true)
    (ends : ∀ c ∈ rest.head?, isBlank c = true) : firstWord? (gap ++ (word ++ rest)) = some word := by
  obtain ⟨c, word, rfl⟩ := List.exists_cons_of_ne_nil nonempty
  have hdrop : (gap ++ (c :: word ++ rest)).dropWhile isBlank = c :: word ++ rest := by
    rw [List.dropWhile_append_of_pos blank]
    exact List.dropWhile_cons_of_neg (by simp [isBlank_of_isPlain (plain c List.mem_cons_self)])
  unfold firstWord?
  rw [hdrop, (word_append plain ends).1]

end FleetHealth.Exposition
