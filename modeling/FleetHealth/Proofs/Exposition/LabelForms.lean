import FleetHealth.Proofs.Exposition.LabelTexts

/-! # Forms of label sets

Which texts are read as a label set: labels after blanks and commas, each with a name up to its
equals sign and a value in quotes, up to a brace that is not inside of a value. A label set is
the same whatever stands behind it.
-/
namespace FleetHealth.Exposition

open Text

variable {labels labels' : Keyed String} {rest : List Char}

/-! ## Values and sets -/

/-- What stands between the quotes of a value, and what it says. A backslash takes the next
character along. -/
inductive QuotedText : List Char → List Char → Prop
  | nil : QuotedText [] []
  | plain {c : Char} {text said : List Char} (slash : c ≠ '\\') (quote : c ≠ '"')
      (more : QuotedText text said) : QuotedText (c :: text) (c :: said)
  | escaped {c : Char} {text said : List Char} (more : QuotedText text said) :
      QuotedText ('\\' :: c :: text) (unescape c :: said)

/-- A label set after its opening brace, and what it makes of the labels before it. -/
inductive LabelSet : Keyed String → List Char → Keyed String → Prop
  | close {labels : Keyed String} : LabelSet labels ['\x7d'] labels
  | skip {labels labels' : Keyed String} {c : Char} {text : List Char} (between : (isBlank c || c = ',') = true)
      (more : LabelSet labels text labels') : LabelSet labels (c :: text) labels'
  | label {labels labels' : Keyed String} {name quoted said text : List Char}
      (first : ∀ c ∈ name.head?, (isBlank c || c = ',') = false ∧ c ≠ '\x7d') (equals : '=' ∉ name)
      (value : QuotedText quoted said)
      (more : LabelSet (labels.insert (String.ofList (trim name)) (String.ofList said)) text labels') :
      LabelSet labels (name ++ '=' :: '"' :: (quoted ++ '"' :: text)) labels'

/-! ## Reading them -/

theorem readLabels_quoted {name value quoted said : List Char} (h : QuotedText quoted said) :
    readLabels (.value name value) labels (quoted ++ rest) =
      readLabels (.value name (said.reverse ++ value)) labels rest := by
  induction h generalizing value with
  | nil => rfl
  | plain slash quote more ih =>
    rw [List.cons_append, readLabels, if_neg slash, if_neg quote, ih]
    simp
  | escaped more ih =>
    rw [List.cons_append, List.cons_append, readLabels, if_pos rfl, readLabels, ih]
    simp

theorem LabelSet.readLabels {set : List Char} (h : LabelSet labels set labels') (rest : List Char) :
    Exposition.readLabels .between labels (set ++ rest) = some (labels', rest) := by
  induction h with
  | close => rfl
  | skip between more ih => rw [List.cons_append, Exposition.readLabels, if_pos between, ih]
  | @label labels labels' name quoted said text first equals value more ih =>
    have hvalue : Exposition.readLabels (.afterName name.reverse) labels
        ('"' :: (quoted ++ '"' :: (text ++ rest))) = some (labels', rest) := by
      rw [readLabels_opening, readLabels_quoted value, readLabels_closing, List.append_nil,
        List.reverse_reverse, List.reverse_reverse, ih]
    cases name with
    | nil => simpa [Exposition.readLabels, isBlank, blankRanges] using hvalue
    | cons c name =>
      obtain ⟨hbetween, hbrace⟩ := first c rfl
      rw [List.mem_cons, not_or] at equals
      have htext : c :: name ++ '=' :: '"' :: (quoted ++ '"' :: text) ++ rest =
          c :: (name ++ '=' :: '"' :: (quoted ++ '"' :: (text ++ rest))) := by simp
      rw [htext, Exposition.readLabels, if_neg (by simp [hbetween]), if_neg hbrace, if_neg (Ne.symm equals.1),
        readLabels_name name equals.2]
      simpa using hvalue

def InValue (labels : Keyed String) (name value text : List Char) (labels' : Keyed String) : Prop :=
  ∃ quoted said back, text = quoted ++ '"' :: back ∧ QuotedText quoted said ∧
    LabelSet (labels.insert (String.ofList (trim name)) (String.ofList (value ++ said))) back labels'

theorem InValue.plain {name value text : List Char} {c : Char} (slash : c ≠ '\\') (quote : c ≠ '"')
    (h : InValue labels name (value ++ [c]) text labels') : InValue labels name value (c :: text) labels' := by
  obtain ⟨quoted, said, back, rfl, hquoted, hback⟩ := h
  exact ⟨c :: quoted, c :: said, back, rfl, hquoted.plain slash quote, by simpa using hback⟩

theorem InValue.escaped {name value text : List Char} {c : Char}
    (h : InValue labels name (value ++ [unescape c]) text labels') :
    InValue labels name value ('\\' :: c :: text) labels' := by
  obtain ⟨quoted, said, back, rfl, hquoted, hback⟩ := h
  exact ⟨'\\' :: c :: quoted, unescape c :: said, back, rfl, hquoted.escaped, by simpa using hback⟩

/-- The text completes a set of which a part was read. -/
def Completes : LabelStage → Keyed String → List Char → Keyed String → Prop
  | .between, labels, text, labels' => LabelSet labels text labels'
  | .name name, labels, text, labels' => ∃ more back, text = more ++ '=' :: '"' :: back ∧ '=' ∉ more ∧
      InValue labels (name.reverse ++ more) [] back labels'
  | .afterName name, labels, text, labels' => ∃ back, text = '"' :: back ∧
      InValue labels name.reverse [] back labels'
  | .value name value, labels, text, labels' => InValue labels name.reverse value.reverse text labels'
  | .escape name value, labels, text, labels' => ∃ c back, text = c :: back ∧
      InValue labels name.reverse (value.reverse ++ [unescape c]) back labels'

theorem completes_of_readLabels {stage : LabelStage} {text : List Char}
    (h : readLabels stage labels text = some (labels', rest)) :
    ∃ set, text = set ++ rest ∧ Completes stage labels set labels' := by
  fun_induction readLabels stage labels text with
  | case1 => cases h
  | case2 labels c text between ih =>
    obtain ⟨set, rfl, hset⟩ := ih h
    exact ⟨c :: set, rfl, .skip between hset⟩
  | case3 labels text between =>
    cases h
    exact ⟨['\x7d'], rfl, .close⟩
  | case4 labels text _ _ ih =>
    obtain ⟨_, rfl, _, rfl, quoted, said, back, rfl, hquoted, hback⟩ := ih h
    exact ⟨_, rfl, @LabelSet.label _ _ [] _ _ _ (by simp) (by simp) hquoted hback⟩
  | case5 labels c text between hbrace hequals ih =>
    obtain ⟨_, rfl, more, _, rfl, hmore, quoted, said, back, rfl, hquoted, hback⟩ := ih h
    refine ⟨_, rfl, @LabelSet.label _ _ (c :: more) _ _ _ ?_ ?_ hquoted hback⟩
    · rintro _ ⟨⟩
      exact ⟨by simpa using between, hbrace⟩
    · simpa using And.intro (Ne.symm hequals) hmore
  | case6 name labels text ih =>
    obtain ⟨_, rfl, back, rfl, hvalue⟩ := ih h
    exact ⟨_, rfl, [], back, rfl, by simp, by simpa using hvalue⟩
  | case7 name labels c text hequals ih =>
    obtain ⟨_, rfl, more, back, rfl, hmore, hvalue⟩ := ih h
    exact ⟨_, rfl, c :: more, back, rfl, by simpa using And.intro (Ne.symm hequals) hmore, by simpa using hvalue⟩
  | case8 name labels text ih =>
    obtain ⟨set, rfl, hvalue⟩ := ih h
    exact ⟨_, rfl, set, rfl, hvalue⟩
  | case9 => cases h
  | case10 name value labels text ih =>
    obtain ⟨_, rfl, c, back, rfl, hvalue⟩ := ih h
    exact ⟨_, rfl, hvalue.escaped⟩
  | case11 name value labels text _ ih =>
    obtain ⟨set, rfl, hset⟩ := ih h
    exact ⟨_, rfl, [], [], set, rfl, .nil, by simpa [Completes] using hset⟩
  | case12 name value labels c text slash quote ih =>
    obtain ⟨set, rfl, hvalue⟩ := ih h
    exact ⟨_, rfl, InValue.plain slash quote (by simpa [Completes] using hvalue)⟩
  | case13 name value labels c text ih =>
    obtain ⟨set, rfl, hvalue⟩ := ih h
    exact ⟨_, rfl, c, set, rfl, by simpa [Completes] using hvalue⟩

/-- A label set is read up to its brace, and what is read as one has that form. -/
theorem readLabels_eq_some_iff {text : List Char} :
    readLabels .between labels text = some (labels', rest) ↔
      ∃ set, text = set ++ rest ∧ LabelSet labels set labels' := by
  constructor
  · exact completes_of_readLabels
  · rintro ⟨set, rfl, hset⟩
    exact hset.readLabels rest

end FleetHealth.Exposition
