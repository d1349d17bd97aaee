import FleetHealth.Proofs.Exposition.TokenTexts
import FleetHealth.Proofs.Keyed

/-! # Label sets read back

A label set is written with the quotes, backslashes and line feeds of its values escaped.
Inside of a value only a bare quote ends it, so that braces, commas and equals signs there are
read as what they are, and after every label the reader is where it was before.
-/
namespace FleetHealth.Exposition

open Text Number

variable {name value rest : List Char} {labels : Keyed String}

/-! ## Values -/

def escapeChar (c : Char) : List Char :=
  if c = '\\' then ['\\', '\\']
  else if c = '"' then ['\\', '"']
  else if c = '\n' then ['\\', 'n']
  else [c]

def escape (value : List Char) : List Char := value.flatMap escapeChar

theorem newline_notMem_escape (value : List Char) : '\n' ∉ escape value := by
  intro hmem
  obtain ⟨c, -, hc⟩ := List.mem_flatMap.mp hmem
  unfold escapeChar at hc
  split_ifs at hc with hslash hquote hbreak
  · simp at hc
  · simp at hc
  · simp at hc
  · exact hbreak (List.mem_singleton.mp hc).symm

theorem readLabels_escapeChar (c : Char) :
    readLabels (.value name value) labels (escapeChar c ++ rest) =
      readLabels (.value name (c :: value)) labels rest := by
  unfold escapeChar
  split_ifs with hslash hquote hbreak
  · subst hslash
    rfl
  · subst hquote
    rfl
  · subst hbreak
    rfl
  · rw [List.singleton_append, readLabels, if_neg hslash, if_neg hquote]

theorem readLabels_escape (text : List Char) :
    readLabels (.value name value) labels (escape text ++ rest) =
      readLabels (.value name (text.reverse ++ value)) labels rest := by
  induction text generalizing value with
  | nil => rfl
  | cons c text ih =>
    rw [escape, List.flatMap_cons, List.append_assoc, readLabels_escapeChar]
    change readLabels _ _ (escape text ++ rest) = _
    rw [ih, List.reverse_cons, List.append_assoc, List.singleton_append]

theorem readLabels_opening :
    readLabels (.afterName name) labels ('"' :: rest) = readLabels (.value name []) labels rest := rfl

theorem readLabels_closing :
    readLabels (.value name value) labels ('"' :: rest) =
      readLabels .between
        (labels.insert (String.ofList (trim name.reverse)) (String.ofList value.reverse)) rest := rfl

/-! ## Labels -/

theorem readLabels_name (text : List Char) (h : '=' ∉ text) :
    readLabels (.name name) labels (text ++ '=' :: rest) =
      readLabels (.afterName (text.reverse ++ name)) labels rest := by
  induction text generalizing name with
  | nil => rfl
  | cons c text ih =>
    rw [List.mem_cons, not_or] at h
    rw [List.cons_append, readLabels, if_neg (Ne.symm h.1), ih h.2, List.reverse_cons,
      List.append_assoc, List.singleton_append]

theorem readLabels_start {c : Char} (h : isLabelStart c = true) :
    readLabels .between labels (c :: rest) = readLabels (.name [c]) labels rest := by
  have hplain := isPlain_of_isSampleStart (isSampleStart_of_isLabelStart h)
  have hother : ∀ d : Char, isLabelStart d = false → c ≠ d := by
    rintro d hd rfl
    rw [h] at hd
    cases hd
  rw [readLabels]
  simp [isBlank_of_isPlain hplain, hother ',' rfl, hother '}' rfl, hother '=' rfl]

def labelText (l : String × String) : List Char :=
  l.1.toList ++ '=' :: '"' :: (escape l.2.toList ++ ['"'])

theorem readLabels_labelText {l : String × String} (named : isName isLabelStart l.1.toList = true) :
    readLabels .between labels (labelText l ++ rest) =
      readLabels .between (labels.insert l.1 l.2) rest := by
  obtain ⟨key, text⟩ := l
  dsimp only at named ⊢
  cases hkey : key.toList with
  | nil => simp [hkey, isName] at named
  | cons c tail =>
    have hplain := isPlain_of_isName (isName_of_label named)
    rw [hkey, isName, Bool.and_eq_true] at named
    have hequals : '=' ∉ tail := by
      intro hmem
      exact absurd (List.all_eq_true.mp named.2 '=' hmem) (by decide)
    have htext : labelText (key, text) ++ rest =
        c :: (tail ++ '=' :: '"' :: (escape text.toList ++ '"' :: rest)) := by
      simp [labelText, hkey]
    have hname : (tail.reverse ++ [c]).reverse = key.toList := by simp [hkey]
    rw [htext, readLabels_start named.1, readLabels_name tail hequals, readLabels_opening,
      readLabels_escape, readLabels_closing, hname, trim_of_isPlain hplain, List.append_nil,
      List.reverse_reverse, String.ofList_toList, String.ofList_toList]

/-! ## Label sets -/

def labelSet (trailing : Bool) : List (String × String) → List Char
  | [] => []
  | first :: others =>
    '{' :: (labelText first ++ (others.flatMap (fun l => ',' :: labelText l) ++
      if trailing then [',', '}'] else ['}']))

theorem readLabels_others {others : List (String × String)}
    (named : ∀ l ∈ others, isName isLabelStart l.1.toList = true) :
    readLabels .between labels (others.flatMap (fun l => ',' :: labelText l) ++ rest) =
      readLabels .between (labels.insertAll others) rest := by
  induction others generalizing labels with
  | nil => rfl
  | cons l others ih =>
    have hskip : ∀ text, readLabels .between labels (',' :: text) = readLabels .between labels text :=
      fun _ => rfl
    rw [List.flatMap_cons, List.append_assoc, List.cons_append, hskip,
      readLabels_labelText (named l List.mem_cons_self), ih fun m hm => named m (List.mem_cons_of_mem _ hm),
      Keyed.insertAll_cons]

/-- The labels are read, and the reader stands behind the set. -/
theorem readLabels_labelSet {trailing : Bool} {entries : List (String × String)} (nonempty : entries ≠ [])
    (named : ∀ l ∈ entries, isName isLabelStart l.1.toList = true)
    (distinct : Keyed.Distinct entries) (rest : List Char) :
    ∃ text, labelSet trailing entries ++ rest = '{' :: text ∧
      readLabels .between .empty text = some (⟨entries⟩, rest) := by
  obtain ⟨first, others, rfl⟩ := List.exists_cons_of_ne_nil nonempty
  refine ⟨_, rfl, ?_⟩
  have hends : readLabels .between (⟨first :: others⟩ : Keyed String)
      ((if trailing then [',', '}'] else ['}']) ++ rest) = some (⟨first :: others⟩, rest) := by
    cases trailing <;> rfl
  have hlabels : (Keyed.empty.insert first.1 first.2).insertAll others = ⟨first :: others⟩ :=
    Keyed.insertAll_of_distinct distinct
  change readLabels .between .empty (labelText first ++ (_ ++ _) ++ rest) = _
  rw [List.append_assoc, List.append_assoc, readLabels_labelText (named first List.mem_cons_self),
    readLabels_others fun l hl => named l (List.mem_cons_of_mem _ hl), hlabels, hends]

theorem newline_notMem_labelText {l : String × String} (named : isName isLabelStart l.1.toList = true) :
    '\n' ∉ labelText l := by
  have hname : '\n' ∉ l.1.toList := by
    intro hmem
    cases isPlain_of_isName (isName_of_label named) _ hmem
  simp [labelText, hname, newline_notMem_escape]

theorem newline_notMem_labelSet {trailing : Bool} {entries : List (String × String)}
    (named : ∀ l ∈ entries, isName isLabelStart l.1.toList = true) :
    '\n' ∉ labelSet trailing entries := by
  cases entries with
  | nil => exact List.not_mem_nil
  | cons first others =>
    have hothers : '\n' ∉ others.flatMap fun l => ',' :: labelText l := by
      intro hmem
      obtain ⟨l, hl, hmem⟩ := List.mem_flatMap.mp hmem
      have hlabel := newline_notMem_labelText (named l (List.mem_cons_of_mem _ hl))
      simp [hlabel] at hmem
    cases trailing <;>
      simp [labelSet, newline_notMem_labelText (named first List.mem_cons_self), hothers]

end FleetHealth.Exposition
