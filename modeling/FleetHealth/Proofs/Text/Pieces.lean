import FleetHealth.Text.Blank
import Mathlib.Data.List.TakeWhile

/-! # Texts cut into pieces

What cutting a text at its separators, its first or last separator or its blanks gives. Pieces
that do not have the separator are found again after they were joined with it. Lower case
replaces ASCII letters only, so it neither makes nor removes a separator.
-/
namespace FleetHealth.Text

/-! ## Pieces between separators -/

theorem splitAt_append {sep : Char} {s : List Char} (rest : List Char) (h : sep ∉ s) :
    splitAt sep (s ++ sep :: rest) = s :: splitAt sep rest := by
  induction s with
  | nil => simp [splitAt]
  | cons c s ih =>
    rw [List.mem_cons, not_or] at h
    rw [List.cons_append, splitAt, if_neg (Ne.symm h.1), ih h.2]

theorem splitAt_ne_nil (sep : Char) (s : List Char) : splitAt sep s ≠ [] := by
  cases s with
  | nil => simp [splitAt]
  | cons c s =>
    rw [splitAt]
    split
    · simp
    · split <;> simp

theorem splitAt_join (sep : Char) (s rest : List Char) :
    splitAt sep (s ++ sep :: rest) = splitAt sep s ++ splitAt sep rest := by
  induction s with
  | nil => simp [splitAt]
  | cons c s ih =>
    rw [List.cons_append, splitAt, splitAt, ih]
    by_cases hc : c = sep
    · rw [if_pos hc, if_pos hc, List.cons_append]
    · rw [if_neg hc, if_neg hc]
      cases hpieces : splitAt sep s with
      | nil => exact absurd hpieces (splitAt_ne_nil sep s)
      | cons piece pieces => rfl

theorem splitAt_of_notMem {sep : Char} {s : List Char} (h : sep ∉ s) : splitAt sep s = [s] := by
  induction s with
  | nil => rfl
  | cons c s ih =>
    rw [List.mem_cons, not_or] at h
    rw [splitAt, if_neg (Ne.symm h.1), ih h.2]

theorem splitAt_intercalate {sep : Char} {pieces : List (List Char)} (hpieces : pieces ≠ [])
    (h : ∀ piece ∈ pieces, sep ∉ piece) : splitAt sep (List.intercalate [sep] pieces) = pieces := by
  induction pieces with
  | nil => exact absurd rfl hpieces
  | cons piece pieces ih =>
    cases pieces with
    | nil => simpa [List.intercalate] using splitAt_of_notMem (h piece List.mem_cons_self)
    | cons next pieces =>
      rw [List.intercalate_cons_cons, List.append_assoc, List.singleton_append,
        splitAt_append _ (h piece List.mem_cons_self),
        ih (List.cons_ne_nil _ _) fun p hp => h p (List.mem_cons_of_mem _ hp)]

theorem mem_of_mem_splitAt {sep c : Char} {s piece : List Char} (hpiece : piece ∈ splitAt sep s)
    (hc : c ∈ piece) : c ∈ s := by
  induction s generalizing piece with
  | nil =>
    rw [List.mem_singleton.mp hpiece] at hc
    exact hc
  | cons d s ih =>
    rw [splitAt] at hpiece
    split at hpiece
    · rcases List.mem_cons.mp hpiece with rfl | hpiece
      · cases hc
      · exact List.mem_cons_of_mem _ (ih hpiece hc)
    · split at hpiece
      · next hnil => exact absurd hnil (splitAt_ne_nil sep s)
      · next first pieces hsplit =>
        rcases List.mem_cons.mp hpiece with rfl | hpiece
        · rcases List.mem_cons.mp hc with rfl | hc
          · exact List.mem_cons_self
          · exact List.mem_cons_of_mem _ (ih (by rw [hsplit]; exact List.mem_cons_self) hc)
        · exact List.mem_cons_of_mem _ (ih (by rw [hsplit]; exact List.mem_cons_of_mem _ hpiece) hc)

theorem notMem_splitAt {sep : Char} {s piece : List Char} (h : piece ∈ splitAt sep s) :
    sep ∉ piece := by
  induction s generalizing piece with
  | nil =>
    rw [List.mem_singleton.mp h]
    exact List.not_mem_nil
  | cons c rest ih =>
    unfold splitAt at h
    split at h
    · rcases List.mem_cons.mp h with rfl | h
      · exact List.not_mem_nil
      · exact ih h
    · next hc =>
      split at h
      · rw [List.mem_singleton.mp h]
        simpa using Ne.symm hc
      · next first pieces hsplit =>
        rw [hsplit] at ih
        rcases List.mem_cons.mp h with rfl | h
        · simp [ih List.mem_cons_self, Ne.symm hc]
        · exact ih (List.mem_cons_of_mem _ h)

theorem intercalate_splitAt (sep : Char) (s : List Char) :
    List.intercalate [sep] (splitAt sep s) = s := by
  induction s with
  | nil => rfl
  | cons c s ih =>
    obtain ⟨piece, pieces, hsplit⟩ := List.exists_cons_of_ne_nil (splitAt_ne_nil sep s)
    rw [hsplit] at ih
    by_cases hc : c = sep
    · rw [splitAt, if_pos hc, hsplit, List.intercalate_cons_cons, ih, hc]
      rfl
    · rw [splitAt, if_neg hc, hsplit]
      cases pieces with
      | nil => simpa [List.intercalate] using ih
      | cons next pieces =>
        rw [List.intercalate_cons_cons] at ih ⊢
        exact congrArg (c :: ·) ih

theorem mem_intercalate {sep c : Char} {pieces : List (List Char)}
    (h : c ∈ List.intercalate [sep] pieces) : c = sep ∨ ∃ piece ∈ pieces, c ∈ piece := by
  induction pieces with
  | nil => simp at h
  | cons piece pieces ih =>
    cases pieces with
    | nil => exact .inr ⟨piece, List.mem_cons_self, by simpa using h⟩
    | cons next pieces =>
      rw [List.intercalate_cons_cons, List.append_assoc, List.singleton_append, List.mem_append,
        List.mem_cons] at h
      rcases h with h | h | h
      · exact .inr ⟨piece, List.mem_cons_self, h⟩
      · exact .inl h
      · exact (ih h).imp_right fun ⟨p, hp, hc⟩ => ⟨p, List.mem_cons_of_mem _ hp, hc⟩

theorem infix_intercalate {sep : Char} {pieces : List (List Char)} {piece : List Char}
    (h : piece ∈ pieces) : piece <:+: List.intercalate [sep] pieces := by
  induction pieces with
  | nil => cases h
  | cons first pieces ih =>
    cases pieces with
    | nil =>
      rw [List.mem_singleton.mp h]
      simp [List.intercalate]
    | cons next pieces =>
      rw [List.intercalate_cons_cons]
      rcases List.mem_cons.mp h with rfl | h
      · rw [List.append_assoc]
        exact (List.prefix_append _ _).isInfix
      · exact (ih h).trans (List.suffix_append _ _).isInfix

theorem infix_of_mem_splitAt {sep : Char} {s piece : List Char} (h : piece ∈ splitAt sep s) :
    piece <:+: s := by
  have hinfix : piece <:+: List.intercalate [sep] (splitAt sep s) := infix_intercalate h
  rwa [intercalate_splitAt] at hinfix

/-- What holds of the separator and of all pieces holds of the text. -/
theorem forall_of_splitAt {p : Char → Prop} {sep : Char} {s : List Char} (hsep : p sep)
    (h : ∀ piece ∈ splitAt sep s, ∀ c ∈ piece, p c) : ∀ c ∈ s, p c := by
  intro c hc
  rw [← intercalate_splitAt sep s] at hc
  rcases mem_intercalate hc with rfl | ⟨piece, hpiece, hmem⟩
  · exact hsep
  · exact h piece hpiece c hmem

/-- Replacing characters leaves the pieces where they are if the separator is kept and no other
character becomes one. -/
theorem splitAt_map {f : Char → Char} {sep : Char} (hf : ∀ c, f c = sep ↔ c = sep) (s : List Char) :
    splitAt sep (s.map f) = (splitAt sep s).map (·.map f) := by
  induction s with
  | nil => rfl
  | cons c s ih =>
    rw [List.map_cons, splitAt, splitAt, ih]
    by_cases hc : c = sep
    · rw [if_pos hc, if_pos ((hf c).mpr hc)]
      rfl
    · rw [if_neg hc, if_neg (mt (hf c).mp hc)]
      cases splitAt sep s <;> rfl

/-! ## The first and the last separator -/

theorem cutFirst_of_notMem {sep : Char} {s : List Char} (h : sep ∉ s) : cutFirst sep s = none := by
  induction s with
  | nil => rfl
  | cons c s ih =>
    rw [List.mem_cons, not_or] at h
    rw [cutFirst, if_neg (Ne.symm h.1), ih h.2, Option.map_none]

theorem cutLast_of_notMem {sep : Char} {s : List Char} (h : sep ∉ s) : cutLast sep s = none := by
  rw [cutLast, cutFirst_of_notMem (by simpa using h), Option.map_none]

theorem cutFirst_append {sep : Char} {s : List Char} (rest : List Char) (h : sep ∉ s) :
    cutFirst sep (s ++ sep :: rest) = some (s, rest) := by
  induction s with
  | nil => simp [cutFirst]
  | cons c s ih =>
    rw [List.mem_cons, not_or] at h
    rw [List.cons_append, cutFirst, if_neg (Ne.symm h.1), ih h.2, Option.map_some]

theorem notMem_of_cutFirst {sep : Char} {s : List Char} (h : cutFirst sep s = none) : sep ∉ s := by
  intro hmem
  obtain ⟨before, after, rfl, hbefore⟩ := List.eq_append_cons_of_mem hmem
  rw [cutFirst_append after hbefore] at h
  cases h

theorem notMem_of_cutLast {sep : Char} {s : List Char} (h : cutLast sep s = none) : sep ∉ s := by
  simpa using notMem_of_cutFirst (Option.map_eq_none_iff.mp h)

theorem cutLast_append {sep : Char} (before : List Char) {after : List Char} (h : sep ∉ after) :
    cutLast sep (before ++ sep :: after) = some (before, after) := by
  rw [cutLast, List.reverse_append, List.reverse_cons, List.append_assoc, List.singleton_append,
    cutFirst_append _ (by simpa using h), Option.map_some, List.reverse_reverse, List.reverse_reverse]

theorem cutLast_eq_some {sep : Char} {s before after : List Char}
    (h : cutLast sep s = some (before, after)) : s = before ++ sep :: after ∧ sep ∉ after := by
  obtain ⟨⟨back, front⟩, hcut, heq⟩ := Option.map_eq_some_iff.mp h
  obtain ⟨rfl, rfl⟩ := Prod.mk.inj heq
  obtain ⟨hs, hback⟩ := cutFirst_eq_some hcut
  refine ⟨?_, by simpa using hback⟩
  rw [← s.reverse_reverse, hs]
  simp

/-! ## Blanks at the ends -/

theorem dropWhile_isBlank {gap rest : List Char} (blank : ∀ c ∈ gap, isBlank c = true)
    (first : ∀ c ∈ rest.head?, isBlank c = false) : (gap ++ rest).dropWhile isBlank = rest := by
  rw [List.dropWhile_append_of_pos blank]
  cases rest with
  | nil => rfl
  | cons c rest => exact List.dropWhile_cons_of_neg (by simp [first c rfl])

/-- Blanks around a text are trimmed, and nothing else if neither end of it is blank. -/
theorem trim_surrounded {before s after : List Char} (hs : s ≠ [])
    (first : ∀ c ∈ s.head?, isBlank c = false) (last : ∀ c ∈ s.getLast?, isBlank c = false)
    (hbefore : ∀ c ∈ before, isBlank c = true) (hafter : ∀ c ∈ after, isBlank c = true) :
    trim (before ++ s ++ after) = s := by
  have hfront : (before ++ (s ++ after)).dropWhile isBlank = s ++ after := by
    refine dropWhile_isBlank hbefore ?_
    obtain ⟨c, t, rfl⟩ := List.exists_cons_of_ne_nil hs
    exact first
  have hback : (after.reverse ++ s.reverse).dropWhile isBlank = s.reverse :=
    dropWhile_isBlank (by simpa using hafter) (by simpa using last)
  rw [trim, List.append_assoc, hfront, trimEnd, List.reverse_append, hback, List.reverse_reverse]

theorem trim_eq_self {s : List Char} (first : ∀ c ∈ s.head?, isBlank c = false)
    (last : ∀ c ∈ s.getLast?, isBlank c = false) : trim s = s := by
  cases s with
  | nil => rfl
  | cons c s =>
    have htrim : trim ([] ++ (c :: s) ++ []) = c :: s :=
      trim_surrounded (List.cons_ne_nil c s) first last (by simp) (by simp)
    simpa using htrim

theorem trim_concat_of_isBlank (s : List Char) {c : Char} (h : isBlank c = true) :
    trim (s ++ [c]) = trim s := by
  rw [trim, trim, trimEnd, trimEnd, List.dropWhile_append]
  split
  · next hall =>
    rw [List.isEmpty_iff] at hall
    simp [hall, h]
  · rw [List.reverse_concat, List.dropWhile_cons_of_pos h]

/-- Only the blanks before a character are trimmed if it is none of them. -/
theorem head?_trim {gap : List Char} {c : Char} (rest : List Char) (blank : ∀ d ∈ gap, isBlank d = true)
    (h : isBlank c = false) : (trim (gap ++ c :: rest)).head? = some c := by
  have hdrop : (gap ++ c :: rest).dropWhile isBlank = c :: rest :=
    dropWhile_isBlank blank (by simpa using h)
  rw [trim, hdrop, trimEnd, List.reverse_cons, List.dropWhile_append]
  split
  · simp [h]
  · simp

theorem trim_of_isBlank {s : List Char} (h : ∀ c ∈ s, isBlank c = true) : trim s = [] := by
  rw [trim, List.dropWhile_eq_nil_iff.mpr h]
  rfl

theorem mem_of_mem_trim {s : List Char} {c : Char} (h : c ∈ trim s) : c ∈ s := by
  rw [trim, trimEnd, List.mem_reverse] at h
  have hback := List.mem_reverse.mp ((List.dropWhile_sublist isBlank).mem h)
  exact (List.dropWhile_sublist isBlank).mem hback

/-! ## Lower case -/

theorem forall_ascii {p : Char → Prop} (h : ∀ n < 128, p (Char.ofNat n)) {c : Char}
    (hc : c.toNat < 128) : p c := by
  have hp := h c.toNat hc
  rwa [Char.ofNat_toNat] at hp

theorem toLower_eq_self_or_ascii (c : Char) : c.toLower = c ∨ c.toNat < 128 := by
  unfold Char.toLower
  split
  · next hupper =>
    have hhigh : c.toNat ≤ 90 := hupper.2
    exact .inr (by omega)
  · exact .inl rfl

/-- What lower case keeps of ASCII characters, it keeps of all. -/
theorem toLower_keeps {α : Type} (f : Char → α)
    (h : ∀ n < 128, f (Char.ofNat n).toLower = f (Char.ofNat n)) (c : Char) : f c.toLower = f c := by
  rcases toLower_eq_self_or_ascii c with hc | hc
  · rw [hc]
  · exact forall_ascii (p := fun c => f c.toLower = f c) h hc

/-- No other character becomes a mark in lower case if no ASCII character does. -/
theorem toLower_eq_mark {mark : Char}
    (h : ∀ n < 128, ((Char.ofNat n).toLower == mark) = (Char.ofNat n == mark)) (c : Char) :
    c.toLower = mark ↔ c = mark := by
  have hkept : (c.toLower == mark) = (c == mark) := toLower_keeps (· == mark) h c
  rw [← beq_iff_eq, hkept, beq_iff_eq]

end FleetHealth.Text
