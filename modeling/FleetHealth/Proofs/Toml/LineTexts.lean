import FleetHealth.Proofs.Toml.ValueTexts

/-! # Lines read back

The text of a section is a line for its header and one for each setting. A text is read as
some statements when it is so whatever comes after it; texts with this property can be put
one behind the other, with empty lines between them.
-/
namespace FleetHealth.Toml

open Number Text

/-! ## Keys -/

structure Bare (key : String) : Prop where
  nonempty : key.toList ≠ []
  plain : ∀ c ∈ key.toList, isBareKey c = true

instance (key : String) : Decidable (Bare key) :=
  decidable_of_iff (key.toList ≠ [] ∧ key.toList.all isBareKey = true)
    ⟨fun h => ⟨h.1, List.all_eq_true.mp h.2⟩, fun h => ⟨h.nonempty, List.all_eq_true.mpr h.plain⟩⟩

theorem Bare.cons {key : String} (h : Bare key) :
    ∃ c rest, key.toList = c :: rest ∧ isBareKey c = true ∧ c ≠ '[' := by
  obtain ⟨c, rest, hkey⟩ := List.exists_cons_of_ne_nil h.nonempty
  have hc : isBareKey c = true := h.plain c (by simp [hkey])
  refine ⟨c, rest, hkey, hc, ?_⟩
  rintro rfl
  exact absurd hc (by decide)

theorem isSpace_of_isBareKey {c : Char} (h : isBareKey c = true) : isSpace c = false := by
  cases hspace : isSpace c with
  | false => rfl
  | true =>
    simp only [isSpace, Bool.or_eq_true, decide_eq_true_eq] at hspace
    rcases hspace with rfl | rfl <;> exact absurd h (by decide)

theorem skipSpace_cons {c : Char} (text : List Char) (h : isSpace c = false) :
    skipSpace (c :: text) = c :: text := by simp [skipSpace, h]

theorem readKey_bare {key : String} (hkey : Bare key) {c : Char} (text : List Char)
    (hc : isBareKey c = false) : readKey (key.toList ++ c :: text) = some (key, c :: text) := by
  have htake : (key.toList ++ c :: text).takeWhile isBareKey = key.toList := by
    simp [List.takeWhile_append_of_pos hkey.plain, hc]
  have hdrop : (key.toList ++ c :: text).dropWhile isBareKey = c :: text := by
    simp [List.dropWhile_append_of_pos hkey.plain, hc]
  unfold readKey
  rw [htake, hdrop]
  split
  · next hnil => exact absurd hnil hkey.nonempty
  · simp

/-- A key alone is a path. -/
theorem readPath_bare {key : String} (hkey : Bare key) (c : Char) (text : List Char) {d : Char}
    {rest : List Char}
    (hc : isBareKey c = false) (hnext : skipSpace (c :: text) = d :: rest) (hdot : d ≠ '.') :
    readPath (key.toList ++ c :: text) = some (⟨[], key⟩, d :: rest) := by
  obtain ⟨first, more, hcons, hfirst, -⟩ := hkey.cons
  have hspace : skipSpace (key.toList ++ c :: text) = key.toList ++ c :: text := by
    rw [hcons, List.cons_append, skipSpace_cons _ (isSpace_of_isBareKey hfirst)]
  have hkeys : readKeys (maxDepth + 1) (key.toList ++ c :: text) = some ([key], d :: rest) := by
    rw [readKeys, hspace, readKey_bare hkey text hc]
    simp [hnext, hdot]
  simp [readPath, hkeys]

/-! ## Texts of statements -/

/-- The text is read as these statements, whatever comes after it. -/
structure Reads (text : List Char) (statements : List Statement) : Prop where
  length : statements.length ≤ text.length
  noMark : ∀ rest, text ≠ '\uFEFF' :: rest
  read : ∀ fuel rest, readStatements (fuel + statements.length) (text ++ rest) =
    (readStatements fuel rest).map (statements ++ ·)

theorem Reads.nil : Reads [] [] where
  length := Nat.le_refl 0
  noMark := by simp
  read fuel rest := by simp

theorem Reads.append {text more : List Char} {statements others : List Statement}
    (h : Reads text statements) (hmore : Reads more others) :
    Reads (text ++ more) (statements ++ others) where
  length := by
    rw [List.length_append, List.length_append]
    exact Nat.add_le_add h.length hmore.length
  noMark rest heq := by
    match text with
    | [] => exact hmore.noMark rest heq
    | c :: text => exact h.noMark text (by rw [(List.cons.inj heq).1])
  read fuel rest := by
    have hlength : fuel + (statements ++ others).length =
        fuel + others.length + statements.length := by
      rw [List.length_append]
      omega
    rw [hlength, List.append_assoc, h.read, hmore.read, Option.map_map]
    congr 1
    funext tail
    simp

def startsLine (c : Char) : Prop := c = '[' ∨ isBareKey c = true

theorem skipLines_cons {c : Char} (fuel : Nat) (text : List Char) (hc : startsLine c) :
    skipLines fuel (c :: text) = c :: text := by
  have hspace : isSpace c = false := by
    rcases hc with rfl | hc
    · rfl
    · exact isSpace_of_isBareKey hc
  have hmark : c ∉ ['#', '\n', '\r'] := by
    intro hmem
    simp only [List.mem_cons, List.not_mem_nil, or_false] at hmem
    rcases hmem with rfl | rfl | rfl <;> exact absurd hc (by simp [startsLine, isBareKey])
  simp only [List.mem_cons, List.not_mem_nil, or_false, not_or] at hmark
  cases fuel with
  | zero => rfl
  | succ fuel =>
    simp [skipLines, skipSpace_cons text hspace, skipComment, newline?, hmark]

theorem Reads.line {c : Char} {text : List Char} {statement : Statement} (hc : startsLine c)
    (h : ∀ rest, readStatement (c :: text ++ '\n' :: rest) = some (statement, '\n' :: rest)) :
    Reads (c :: text ++ ['\n']) [statement] where
  length := by simp
  noMark rest heq := by
    obtain ⟨rfl, -⟩ := List.cons.inj heq
    exact absurd hc (by simp [startsLine, isBareKey])
  read fuel rest := by
    have hend : endLine ('\n' :: rest) = some rest := rfl
    have hline := h rest
    rw [List.cons_append] at hline
    simp only [List.length_singleton, List.cons_append, List.append_assoc, List.nil_append,
      readStatements, skipLines_cons _ _ hc, hline, Option.bind_eq_bind, Option.bind_some, hend]
    exact (Option.map_eq_bind ..).symm

theorem Reads.blank : Reads ['\n'] [] where
  length := by simp
  noMark := by simp
  read fuel rest := by
    cases fuel with
    | zero => rfl
    | succ fuel =>
      have hskip : skipLines (('\n' :: rest).length + 1) ('\n' :: rest) =
          skipLines (rest.length + 1) rest := rfl
      simp only [List.length_nil, Nat.add_zero, List.singleton_append, readStatements, hskip]
      simp

/-! ## Settings and headers -/

def settingStatement (s : String × Scalar) : Statement := .setting ⟨[], s.1⟩ s.2.toJson

theorem text?_cons {v : Scalar} {text : List Char} (h : v.text? = some text) :
    ∃ c rest, text = c :: rest ∧ isSpace c = false := by
  cases v with
  | text s =>
    cases h
    obtain ⟨c, rest, hcons, rfl | rfl⟩ := stringText_cons s.toList
    · exact ⟨_, rest, hcons, rfl⟩
    · exact ⟨_, rest, hcons, rfl⟩
  | integer n =>
    rw [Scalar.text?] at h
    split at h
    · cases h
      obtain ⟨d, ds, hcons, hdigits, -⟩ := decimal_eq_cons n
      refine ⟨d, ds, hcons, isSpace_of_isBareKey ?_⟩
      have hd : d.isDigit = true := hdigits d List.mem_cons_self
      simp [isBareKey, Char.isAlphanum, hd]
    · cases h
  | bool b =>
    cases h
    cases b
    · exact ⟨_, _, rfl, rfl⟩
    · exact ⟨_, _, rfl, rfl⟩
  | emptyList =>
    cases h
    exact ⟨_, _, rfl, rfl⟩

theorem Reads.setting {s : String × Scalar} {line : List Char} (hkey : Bare s.1)
    (h : settingLine? s = some line) : Reads line [settingStatement s] := by
  obtain ⟨v, hv, rfl⟩ := Option.map_eq_some_iff.mp h
  obtain ⟨first, more, hcons, hfirst⟩ := hkey.cons
  obtain ⟨c, text, htext, hspace⟩ := text?_cons hv
  have hread : ∀ rest, readStatement (s.1.toList ++ ' ' :: '=' :: ' ' :: (v ++ '\n' :: rest)) =
      some (settingStatement s, '\n' :: rest) := by
    intro rest
    have hpath := readPath_bare hkey ' ' ('=' :: ' ' :: (v ++ '\n' :: rest)) rfl rfl
      (by decide)
    have hvalue : readValue maxDepth (skipSpace (' ' :: (v ++ '\n' :: rest))) =
        some (s.2.toJson, '\n' :: rest) := by
      have hskip : skipSpace (' ' :: (v ++ '\n' :: rest)) = v ++ '\n' :: rest := by
        rw [htext, List.cons_append]
        exact skipSpace_cons _ hspace
      rw [hskip, readValue_text hv]
    have hbracket : ∀ tail, s.1.toList ++ ' ' :: '=' :: ' ' :: (v ++ '\n' :: rest) ≠ '[' :: tail := by
      intro tail heq
      rw [hcons] at heq
      obtain ⟨rfl, -⟩ := List.cons.inj heq
      exact hfirst.2 rfl
    rw [readStatement]
    · simp [readSetting, hpath, expect, hvalue, settingStatement]
    · exact hbracket
  have hline : s.1.toList ++ " = ".toList ++ v ++ ['\n'] =
      first :: (more ++ ' ' :: '=' :: ' ' :: v) ++ ['\n'] := by
    rw [hcons]
    simp
  rw [hline]
  refine Reads.line (.inr hfirst.1) fun rest => ?_
  have hrest := hread rest
  rw [hcons] at hrest
  simpa using hrest

theorem Reads.settings {settings : List (String × Scalar)} {lines : List (List Char)}
    (hkeys : ∀ s ∈ settings, Bare s.1) (h : settings.mapM settingLine? = some lines) :
    Reads lines.flatten (settings.map settingStatement) := by
  induction settings generalizing lines with
  | nil =>
    cases h
    exact .nil
  | cons s settings ih =>
    obtain ⟨line, hline, lines, hlines, rfl⟩ : ∃ line, settingLine? s = some line ∧
        ∃ rest, settings.mapM settingLine? = some rest ∧ line :: rest = lines := by
      simpa [List.mapM_cons, Option.bind_eq_some_iff] using h
    have hfirst := Reads.setting (hkeys s List.mem_cons_self) hline
    have hrest := ih (fun s hs => hkeys s (List.mem_cons_of_mem _ hs)) hlines
    exact hfirst.append hrest

inductive Heading where
  | root
  | table (key : String)
  | element (key : String)

def Heading.text : Heading → Option String
  | .root => none
  | .table key => some ("[" ++ key ++ "]")
  | .element key => some ("[[" ++ key ++ "]]")

def Heading.statements : Heading → List Statement
  | .root => []
  | .table key => [.header ⟨[], key⟩]
  | .element key => [.listHeader ⟨[], key⟩]

def Heading.Bare : Heading → Prop
  | .root => True
  | .table key => Toml.Bare key
  | .element key => Toml.Bare key

theorem Reads.heading {heading : Heading} (h : heading.Bare) :
    Reads (headerLine heading.text) heading.statements := by
  cases heading with
  | root => exact .nil
  | table key =>
    have hline : headerLine (Heading.table key).text = '[' :: (key.toList ++ [']']) ++ ['\n'] := by
      simp [headerLine, Heading.text]
    rw [hline]
    refine Reads.line (.inl rfl) fun rest => ?_
    have hpath := readPath_bare h ']' ('\n' :: rest) rfl rfl (by decide)
    obtain ⟨first, more, hcons, -, hfirst⟩ := h.cons
    have htext : '[' :: (key.toList ++ [']']) ++ '\n' :: rest =
        '[' :: (key.toList ++ ']' :: '\n' :: rest) := by simp
    rw [htext, readStatement, readHeader]
    · simp [hpath, expect]
    · intro tail heq
      rw [hcons] at heq
      exact hfirst (List.cons.inj heq).1
  | element key =>
    have hline : headerLine (Heading.element key).text =
        '[' :: ('[' :: (key.toList ++ [']', ']'])) ++ ['\n'] := by
      simp [headerLine, Heading.text]
    rw [hline]
    refine Reads.line (.inl rfl) fun rest => ?_
    have hpath := readPath_bare h ']' (']' :: '\n' :: rest) rfl rfl (by decide)
    have htext : '[' :: ('[' :: (key.toList ++ [']', ']'])) ++ '\n' :: rest =
        '[' :: '[' :: (key.toList ++ ']' :: ']' :: '\n' :: rest) := by simp
    rw [htext, readStatement, readHeader]
    simp [hpath, expect]

/-! ## Sections -/

/-- A heading and the settings under it. -/
structure Block where
  heading : Heading
  settings : List (String × Scalar)

namespace Block

def toSection (b : Block) : Section := ⟨b.heading.text, b.settings⟩

def statements (b : Block) : List Statement := b.heading.statements ++ b.settings.map settingStatement

def Bare (b : Block) : Prop := b.heading.Bare ∧ ∀ s ∈ b.settings, Toml.Bare s.1

end Block

theorem Reads.section {b : Block} {text : List Char} (hkeys : b.Bare)
    (h : b.toSection.text? = some text) : Reads text b.statements := by
  obtain ⟨lines, hlines, rfl⟩ := Option.map_eq_some_iff.mp h
  exact (Reads.heading hkeys.1).append (Reads.settings hkeys.2 hlines)

theorem Reads.sections {blocks : List Block} {texts : List (List Char)}
    (hkeys : ∀ b ∈ blocks, b.Bare) (h : (blocks.map Block.toSection).mapM Section.text? = some texts) :
    Reads (List.intercalate ['\n'] texts) (blocks.flatMap Block.statements) := by
  induction blocks generalizing texts with
  | nil =>
    cases h
    exact .nil
  | cons b blocks ih =>
    obtain ⟨text, htext, texts, htexts, rfl⟩ : ∃ text, b.toSection.text? = some text ∧
        ∃ rest, (blocks.map Block.toSection).mapM Section.text? = some rest ∧ text :: rest = texts := by
      simpa [List.mapM_cons, Option.bind_eq_some_iff] using h
    have hfirst := Reads.section (hkeys b List.mem_cons_self) htext
    have hrest := ih (fun b hb => hkeys b (List.mem_cons_of_mem _ hb)) htexts
    cases texts with
    | nil => simpa using hfirst.append hrest
    | cons next texts =>
      have hjoined : List.intercalate ['\n'] (text :: next :: texts) =
          text ++ (['\n'] ++ List.intercalate ['\n'] (next :: texts)) := by
        simp [List.intercalate]
      rw [hjoined]
      exact hfirst.append (Reads.blank.append hrest)

/-- What was written of some sections is read as their statements. -/
theorem parse?_write {blocks : List Block} {text : String} (hkeys : ∀ b ∈ blocks, b.Bare)
    (h : write? (blocks.map Block.toSection) = some text) :
    parse? text = assemble (blocks.flatMap Block.statements) := by
  obtain ⟨texts, htexts, rfl⟩ := Option.map_eq_some_iff.mp h
  have hreads := Reads.sections hkeys htexts
  have hmark : dropMark (List.intercalate ['\n'] texts) = List.intercalate ['\n'] texts := by
    unfold dropMark
    split
    · next rest heq => exact absurd heq (hreads.noMark rest)
    · rfl
  have hread : readStatements ((List.intercalate ['\n'] texts).length + 1)
      (List.intercalate ['\n'] texts) = some (blocks.flatMap Block.statements) := by
    -- a statement takes at least one character, so the length is fuel enough
    obtain ⟨fuel, hfuel⟩ : ∃ fuel, (List.intercalate ['\n'] texts).length + 1 =
        (fuel + 1) + (blocks.flatMap Block.statements).length := by
      have hlength := hreads.length
      exact ⟨(List.intercalate ['\n'] texts).length - (blocks.flatMap Block.statements).length, by omega⟩
    have hall := hreads.read (fuel + 1) []
    rw [List.append_nil] at hall
    rw [hfuel, hall]
    simp [readStatements, skipLines, skipSpace, skipComment, newline?]
  simp [parse?, hmark, hread]

end FleetHealth.Toml
