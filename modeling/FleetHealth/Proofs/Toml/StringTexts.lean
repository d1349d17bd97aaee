import FleetHealth.Toml.Printer
import FleetHealth.Toml.Strings
import Mathlib.Tactic.SplitIfs

/-! # Strings read back

Whatever quotes a string is written in, reading them gives the string. A run of quotes at
the end of a long string stands before its closing quotes, so the reader finds the three it
looks for too early and has to give up to two of them back. The line ends after the string,
and so no further quote is taken for a part of it.
-/
namespace FleetHealth.Toml

open Text

/-! ## Escapes -/

theorem toNat_lt_of_needsCode {c : Char} (h : needsCode c = true) : c.toNat < 128 := by
  simp only [needsCode, Bool.or_eq_true, Bool.and_eq_true, decide_eq_true_eq] at h
  omega

theorem isPlain_of_needsCode_eq_false {c : Char} (hcode : needsCode c = false) (hbreak : c ≠ '\n') :
    isPlain c = true := by
  simp only [needsCode, Bool.or_eq_false_iff, Bool.and_eq_false_iff, decide_eq_false_iff_not] at hcode
  simp only [isPlain, Bool.or_eq_true, Bool.and_eq_true, decide_eq_true_eq]
  grind

theorem readScalar_code {n : Nat} (h : n < 128) (rest : List Char) :
    readScalar 4 ('0' :: '0' :: upperHexDigit (n / 16) :: upperHexDigit (n % 16) :: rest) =
      some (Char.ofNat n, rest) := by
  have hdigits : hexDigits? ['0', '0', upperHexDigit (n / 16), upperHexDigit (n % 16)] = some n := by
    revert n
    decide
  have hscalar : scalar? n = some (Char.ofNat n) := if_pos (.inl (by omega))
  simp [readScalar, hdigits, hscalar]

/-- What stands after a backslash for a character. It does not begin with a blank. -/
structure EscapeOf (c : Char) (body : List Char) : Prop where
  read : ∀ rest, readEscape (body ++ rest) = some (c, rest)
  joins : ∀ rest, skipBreak? (body ++ rest) = none
  noBreak : '\n' ∉ body ∧ '\r' ∉ body

theorem EscapeOf.ofLetter {c letter : Char} (hspace : isSpace letter = false) (hfeed : letter ≠ '\n')
    (hreturn : letter ≠ '\r') (hread : ∀ rest, readEscape (letter :: rest) = some (c, rest)) :
    EscapeOf c [letter] := by
  refine ⟨hread, fun rest => ?_, ?_⟩
  · simp [skipBreak?, skipSpace, hspace, newline?, hfeed, hreturn]
  · simp [Ne.symm hfeed, Ne.symm hreturn]

theorem noBreak_code {n : Nat} (h : n < 128) :
    '\n' ∉ ['u', '0', '0', upperHexDigit (n / 16), upperHexDigit (n % 16)] ∧
      '\r' ∉ ['u', '0', '0', upperHexDigit (n / 16), upperHexDigit (n % 16)] := by
  revert n
  decide

theorem escape?_some {long : Bool} {quotes : Nat} {c : Char} {e : List Char}
    (h : escape? long quotes c = some e) : ∃ body, e = '\\' :: body ∧ EscapeOf c body := by
  -- one case for each letter that an escape is written with, and one for codes
  unfold escape? at h
  split_ifs at h <;> cases h
  · subst c; exact ⟨_, rfl, .ofLetter rfl (by decide) (by decide) fun _ => rfl⟩
  · subst c; exact ⟨_, rfl, .ofLetter rfl (by decide) (by decide) fun _ => rfl⟩
  · subst c; exact ⟨_, rfl, .ofLetter rfl (by decide) (by decide) fun _ => rfl⟩
  · subst c; exact ⟨_, rfl, .ofLetter rfl (by decide) (by decide) fun _ => rfl⟩
  · subst c; exact ⟨_, rfl, .ofLetter rfl (by decide) (by decide) fun _ => rfl⟩
  · subst c; exact ⟨_, rfl, .ofLetter rfl (by decide) (by decide) fun _ => rfl⟩
  · subst c; exact ⟨_, rfl, .ofLetter rfl (by decide) (by decide) fun _ => rfl⟩
  · next hcode =>
    have hsmall := toNat_lt_of_needsCode hcode
    refine ⟨_, rfl, fun rest => ?_, fun rest => rfl, noBreak_code hsmall⟩
    have hscalar := readScalar_code hsmall rest
    rw [Char.ofNat_toNat] at hscalar
    exact hscalar

structure Unescaped (long : Bool) (quotes : Nat) (c : Char) : Prop where
  noSlash : c ≠ '\\'
  noReturn : c ≠ '\r'
  content : isPlain c = true ∨ (c = '\n' ∧ long = true)
  quote : c = '"' → long = true ∧ quotes < 2

theorem escape?_none {long : Bool} {quotes : Nat} {c : Char} (h : escape? long quotes c = none) :
    Unescaped long quotes c := by
  have hcode : needsCode c = false ∨ c = '\n' ∨ c = '"' := by
    unfold escape? at h
    grind
  refine ⟨?_, ?_, ?_, ?_⟩
  · rintro rfl
    simp [escape?] at h
  · rintro rfl
    simp [escape?] at h
  · by_cases hbreak : c = '\n'
    · subst hbreak
      exact .inr ⟨rfl, by simpa [escape?] using h⟩
    · rcases hcode with hcode | hc | rfl
      · exact .inl (isPlain_of_needsCode_eq_false hcode hbreak)
      · exact absurd hc hbreak
      · exact .inl rfl
  · rintro rfl
    simpa [escape?] using h

theorem length_le_escaped (long : Bool) (quotes : Nat) (s : List Char) :
    s.length ≤ (escaped long quotes s).length := by
  induction s generalizing quotes with
  | nil => exact Nat.zero_le _
  | cons c rest ih =>
    rw [escaped]
    cases h : escape? long quotes c with
    | none => exact Nat.succ_le_succ (ih _)
    | some e =>
      obtain ⟨body, rfl, -⟩ := escape?_some h
      have hrest := ih 0
      simp only [List.length_cons, List.length_append]
      omega

/-! ## Strings on one line -/

theorem readBasic_cons {fuel : Nat} {c : Char} {text : List Char} (hquote : c ≠ '"')
    (hslash : c ≠ '\\') (hplain : isPlain c = true) :
    readBasic (fuel + 1) (c :: text) = (readBasic fuel text).map fun r => (c :: r.1, r.2) := by
  rw [readBasic, if_pos hplain]
  · exact hquote
  · exact hslash

theorem readBasic_escaped {fuel : Nat} {s : List Char} (quotes : Nat) (rest : List Char)
    (hfuel : s.length < fuel) :
    readBasic fuel (escaped false quotes s ++ '"' :: rest) = some (s, rest) := by
  induction s generalizing fuel quotes with
  | nil =>
    obtain ⟨fuel, rfl⟩ := Nat.exists_eq_add_of_lt hfuel
    simp [escaped, readBasic]
  | cons c s ih =>
    obtain ⟨fuel, rfl⟩ : ∃ n, fuel = n + 1 := ⟨fuel - 1, by omega⟩
    have hrest : ∀ quotes, readBasic fuel (escaped false quotes s ++ '"' :: rest) = some (s, rest) :=
      fun quotes => ih quotes (by simpa using hfuel)
    rw [escaped]
    cases h : escape? false quotes c with
    | some e =>
      obtain ⟨body, rfl, hbody⟩ := escape?_some h
      simp [readBasic, hbody.read, hrest]
    | none =>
      obtain ⟨hslash, -, hcontent, hquote⟩ := escape?_none h
      have hdouble : c ≠ '"' := fun hc => by simpa using (hquote hc).1
      have hplain : isPlain c = true := by simpa using hcontent
      rw [List.cons_append, readBasic_cons hdouble hslash hplain, hrest]
      rfl

theorem readLiteral_content {s : List Char} (rest : List Char) (hquote : '\'' ∉ s)
    (hplain : ∀ c ∈ s, isPlain c = true) : readLiteral (s ++ '\'' :: rest) = some (s, rest) := by
  have hall : ∀ c ∈ s, (c ≠ '\'' && isPlain c) = true := by
    intro c hc
    simpa [hplain c hc] using fun heq : c = '\'' => hquote (heq ▸ hc)
  simp only [readLiteral, List.takeWhile_append_of_pos hall, List.dropWhile_append_of_pos hall]
  simp

/-! ## Long strings -/

theorem trailingQuotes_break (quote : Char) {extra : List Char} (rest : List Char)
    (hextra : ∀ c ∈ extra, c = quote) (hlength : extra.length ≤ 2) (hquote : quote ≠ '\n') :
    trailingQuotes quote (extra ++ '\n' :: rest) = (extra, '\n' :: rest) := by
  match extra, hlength with
  | [], _ => simp [trailingQuotes, Ne.symm hquote]
  | [a], _ =>
    obtain rfl : a = quote := hextra a (by simp)
    simp [trailingQuotes, Ne.symm hquote]
  | [a, b], _ =>
    obtain rfl : a = quote := hextra a (by simp)
    obtain rfl : b = a := hextra b (by simp)
    simp [trailingQuotes]

def closing (quote : Char) (rest : List Char) : List Char := quote :: quote :: quote :: '\n' :: rest

/-- The reader sees the closing quotes before those at the end of the string. -/
theorem append_closing {quote : Char} {extra : List Char} (rest : List Char)
    (hextra : ∀ c ∈ extra, c = quote) :
    extra ++ closing quote rest = quote :: quote :: quote :: (extra ++ '\n' :: rest) := by
  induction extra with
  | nil => rfl
  | cons c extra ih =>
    have hc : c = quote := hextra c List.mem_cons_self
    rw [List.cons_append, ih fun d hd => hextra d (List.mem_cons_of_mem c hd), hc]
    rfl

theorem readLongBasic_cons {fuel : Nat} {c : Char} {text : List Char} (hslash : c ≠ '\\')
    (hreturn : c ≠ '\r') (hcontent : isPlain c = true ∨ c = '\n')
    (htriple : ∀ rest, c :: text ≠ '"' :: '"' :: '"' :: rest) :
    readLongBasic (fuel + 1) (c :: text) = (readLongBasic fuel text).map fun r => (c :: r.1, r.2) := by
  have hstands : (isPlain c || decide (c = '\n')) = true := by simpa using hcontent
  rw [readLongBasic, if_pos hstands]
  · exact fun rest hquote htext => htriple rest (by rw [hquote, htext])
  · exact hslash
  · exact fun rest hc => absurd hc hreturn

theorem readLongBasic_closing (fuel : Nat) (extra rest : List Char)
    (hextra : ∀ c ∈ extra, c = '"') (hlength : extra.length ≤ 2) :
    readLongBasic (fuel + 1) (extra ++ closing '"' rest) = some (extra, '\n' :: rest) := by
  rw [append_closing rest hextra, readLongBasic, trailingQuotes_break '"' rest hextra hlength (by decide)]

theorem escaped_afterTwo {s : List Char} (h : s ≠ []) (text tail : List Char) :
    escaped true 2 s ++ text ≠ '"' :: tail := by
  obtain ⟨c, s, rfl⟩ := List.exists_cons_of_ne_nil h
  rw [escaped]
  cases hescape : escape? true 2 c with
  | some e =>
    obtain ⟨body, rfl, -⟩ := escape?_some hescape
    simp
  | none =>
    have hdouble : c ≠ '"' := fun hc => absurd ((escape?_none hescape).quote hc).2 (by decide)
    simp [hdouble]

/-- The third quote in a row is escaped, so three of them are not found before the string ends. -/
theorem escaped_afterQuote {quotes : Nat} {s : List Char} (hlast : s ≠ [])
    (hpair : ¬(quotes = 0 ∧ s = ['"'])) (text tail : List Char) :
    escaped true (quotes + 1) s ++ text ≠ '"' :: '"' :: tail := by
  intro heq
  obtain ⟨c, s, rfl⟩ := List.exists_cons_of_ne_nil hlast
  rw [escaped] at heq
  cases hescape : escape? true (quotes + 1) c with
  | some e =>
    obtain ⟨body, rfl, -⟩ := escape?_some hescape
    simp [hescape] at heq
  | none =>
    simp only [hescape, List.cons_append] at heq
    obtain ⟨rfl, hnext⟩ := List.cons.inj heq
    have hone := ((escape?_none hescape).quote rfl).2
    obtain rfl : quotes = 0 := by omega
    exact escaped_afterTwo (fun hs => hpair ⟨rfl, by rw [hs]⟩) text tail hnext

theorem readLongBasic_escaped {fuel quotes : Nat} {s : List Char} (rest : List Char)
    (hfuel : s.length < fuel) :
    readLongBasic fuel (escaped true quotes s ++ closing '"' rest) = some (s, '\n' :: rest) := by
  induction s generalizing fuel quotes with
  | nil =>
    obtain ⟨fuel, rfl⟩ : ∃ n, fuel = n + 1 := ⟨fuel - 1, by omega⟩
    exact readLongBasic_closing fuel [] rest (by simp) (Nat.zero_le 2)
  | cons c s ih =>
    obtain ⟨fuel, rfl⟩ : ∃ n, fuel = n + 1 := ⟨fuel - 1, by omega⟩
    have hrest : ∀ quotes, readLongBasic fuel (escaped true quotes s ++ closing '"' rest) =
        some (s, '\n' :: rest) := fun quotes => ih (by simpa using hfuel)
    rw [escaped]
    cases h : escape? true quotes c with
    | some e =>
      obtain ⟨body, rfl, hbody⟩ := escape?_some h
      simp [readLongBasic, hbody.read, hbody.joins, hrest]
    | none =>
      obtain ⟨hslash, hreturn, hcontent, hquote⟩ := escape?_none h
      have hstep : ∀ quotes, (∀ tail, c :: (escaped true quotes s ++ closing '"' rest) ≠
          '"' :: '"' :: '"' :: tail) → readLongBasic (fuel + 1) (c :: escaped true quotes s ++
            closing '"' rest) = some (c :: s, '\n' :: rest) := by
        intro quotes htriple
        rw [List.cons_append, readLongBasic_cons hslash hreturn (by simpa using hcontent) htriple,
          hrest]
        rfl
      by_cases hc : c = '"'
      · -- the reader closes the string here if at most one more quote is left of it
        subst hc
        rw [if_pos rfl]
        by_cases hlast : s = []
        · subst hlast
          exact readLongBasic_closing fuel ['"'] rest (by simp) (by simp)
        by_cases hpair : quotes = 0 ∧ s = ['"']
        · obtain ⟨rfl, rfl⟩ := hpair
          exact readLongBasic_closing fuel ['"', '"'] rest (by simp) (by simp)
        exact hstep (quotes + 1) fun tail heq =>
          escaped_afterQuote hlast hpair _ tail (List.cons.inj heq).2
      · exact hstep _ fun tail heq => hc (List.cons.inj heq).1

/-! ## Long strings without escapes -/

theorem run_le_longestRun (quote : Char) (run : Nat) (s : List Char) :
    run ≤ longestRun quote run s := by
  induction s generalizing run with
  | nil => exact Nat.le_refl run
  | cons c s ih =>
    rw [longestRun]
    split
    · exact Nat.le_of_succ_le (ih (run + 1))
    · exact Nat.le_max_left _ _

theorem notMem_of_longestRun {quote : Char} {s : List Char} (h : longestRun quote 0 s = 0) :
    quote ∉ s := by
  induction s with
  | nil => exact List.not_mem_nil
  | cons c s ih =>
    rw [longestRun] at h
    split at h
    · have hrun := run_le_longestRun quote (0 + 1) s
      omega
    · next hc =>
      have hrest : longestRun quote 0 s = 0 := by simpa using h
      exact List.not_mem_cons_of_ne_of_not_mem (Ne.symm hc) (ih hrest)

theorem readLongLiteral_cons {c : Char} {text : List Char} (hcontent : isPlain c = true ∨ c = '\n')
    (htriple : ∀ rest, c :: text ≠ '\'' :: '\'' :: '\'' :: rest) :
    readLongLiteral (c :: text) = (readLongLiteral text).map fun r => (c :: r.1, r.2) := by
  have hstands : (isPlain c || decide (c = '\n')) = true := by simpa using hcontent
  rw [readLongLiteral, if_pos hstands]
  · exact fun rest hquote htext => htriple rest (by rw [hquote, htext])
  · rintro rest rfl
    exact absurd hstands (by decide)

theorem readLongLiteral_closing (extra rest : List Char)
    (hextra : ∀ c ∈ extra, c = '\'') (hlength : extra.length ≤ 2) :
    readLongLiteral (extra ++ closing '\'' rest) = some (extra, '\n' :: rest) := by
  rw [append_closing rest hextra, readLongLiteral, trailingQuotes_break '\'' rest hextra hlength (by decide)]

theorem readLongLiteral_content {s : List Char} {run : Nat} (rest : List Char)
    (hplain : ∀ c ∈ s, isPlain c = true ∨ c = '\n') (hruns : longestRun '\'' run s ≤ 2) :
    readLongLiteral (s ++ closing '\'' rest) = some (s, '\n' :: rest) := by
  induction s generalizing run with
  | nil => exact readLongLiteral_closing [] rest (by simp) (Nat.zero_le 2)
  | cons c s ih =>
    have hrest : ∀ run, longestRun '\'' run s ≤ 2 →
        readLongLiteral (s ++ closing '\'' rest) = some (s, '\n' :: rest) :=
      fun run hrun => ih (fun d hd => hplain d (List.mem_cons_of_mem c hd)) hrun
    have hstep : (∀ tail, c :: (s ++ closing '\'' rest) ≠ '\'' :: '\'' :: '\'' :: tail) →
        (∃ run, longestRun '\'' run s ≤ 2) →
        readLongLiteral (c :: s ++ closing '\'' rest) = some (c :: s, '\n' :: rest) := by
      intro htriple ⟨run, hrun⟩
      rw [List.cons_append, readLongLiteral_cons (hplain c List.mem_cons_self) htriple, hrest run hrun]
      rfl
    rw [longestRun] at hruns
    split at hruns
    · next hc =>
      subst hc
      by_cases hlast : s = []
      · subst hlast
        exact readLongLiteral_closing ['\''] rest (by simp) (by simp)
      by_cases hpair : s = ['\'']
      · subst hpair
        exact readLongLiteral_closing ['\'', '\''] rest (by simp) (by simp)
      refine hstep (fun tail heq => ?_) ⟨_, hruns⟩
      obtain ⟨d, more, rfl⟩ := List.exists_cons_of_ne_nil hlast
      obtain ⟨rfl, hthird⟩ := List.cons.inj (List.cons.inj heq).2
      have hmore : more ≠ [] := fun hmore => hpair (by rw [hmore])
      obtain ⟨e, more, rfl⟩ := List.exists_cons_of_ne_nil hmore
      obtain rfl := (List.cons.inj hthird).1
      have hthree := run_le_longestRun '\'' (run + 1 + 1 + 1) more
      simp only [longestRun, if_true] at hruns
      omega
    · next hc =>
      have hrun : longestRun '\'' 0 s ≤ 2 := Nat.le_trans (Nat.le_max_right _ _) hruns
      exact hstep (fun tail heq => hc (List.cons.inj heq).1) ⟨0, hrun⟩

/-! ## Any string -/

theorem escaped_breaks (long : Bool) (quotes : Nat) (s : List Char) :
    '\r' ∉ escaped long quotes s ∧ ('\n' ∈ escaped long quotes s → '\n' ∈ s) := by
  induction s generalizing quotes with
  | nil => simp [escaped]
  | cons c s ih =>
    rw [escaped]
    cases h : escape? long quotes c with
    | some e =>
      obtain ⟨body, rfl, hbody⟩ := escape?_some h
      have hrest := ih 0
      simp only [List.cons_append, List.mem_cons, List.mem_append, hbody.noBreak.1, hbody.noBreak.2]
      exact ⟨by simpa using hrest.1, by simpa using fun hfeed => Or.inr (hrest.2 hfeed)⟩
    | none =>
      have hrest := ih (if c = '"' then quotes + 1 else 0)
      refine ⟨List.not_mem_cons_of_ne_of_not_mem (Ne.symm (escape?_none h).noReturn) hrest.1, ?_⟩
      intro hfeed
      rcases List.mem_cons.mp hfeed with rfl | hfeed
      · exact List.mem_cons_self
      · exact List.mem_cons_of_mem c (hrest.2 hfeed)

/-- The line end that is added in front of a string with line ends is the one that is dropped. -/
theorem dropFirstBreak_tripled {s content text : List Char} (hreturn : '\r' ∉ content)
    (hbreak : '\n' ∈ content → '\n' ∈ s) (htext : content = [] → newline? text = none) :
    dropFirstBreak ((if '\n' ∈ s then ['\n'] else []) ++ content ++ text) = content ++ text := by
  by_cases h : '\n' ∈ s
  · simp [h, dropFirstBreak, newline?]
  · have hnone : newline? (content ++ text) = none := by
      match content with
      | [] => exact htext rfl
      | c :: content =>
        have hfeed : c ≠ '\n' := fun hc => h (hbreak (by simp [hc]))
        have hc : c ≠ '\r' := fun hc => hreturn (by simp [hc])
        simp [newline?, hfeed, hc]
    simp [h, dropFirstBreak, hnone]

theorem escaped_noQuote (s text tail : List Char) :
    escaped false 0 s ++ '"' :: '\n' :: text ≠ '"' :: '"' :: tail := by
  match s with
  | [] => simp [escaped]
  | c :: s =>
    rw [escaped]
    cases h : escape? false 0 c with
    | some e =>
      obtain ⟨body, rfl, -⟩ := escape?_some h
      simp
    | none =>
      have hquote : c ≠ '"' := fun hc => by simpa using ((escape?_none h).quote hc).1
      simp [hquote]

theorem readString_basic (s rest : List Char) :
    readString ('"' :: (escaped false 0 s ++ ['"']) ++ '\n' :: rest) = some (s, '\n' :: rest) := by
  have htext : '"' :: (escaped false 0 s ++ ['"']) ++ '\n' :: rest =
      '"' :: (escaped false 0 s ++ '"' :: '\n' :: rest) := by simp
  rw [htext, readString]
  · refine readBasic_escaped 0 ('\n' :: rest) ?_
    have hlength := length_le_escaped false 0 s
    simp only [List.length_append]
    omega
  · intro tail heq
    exact escaped_noQuote s rest tail (List.cons.inj heq).2
  · intro tail heq
    exact absurd (List.cons.inj heq).1 (by decide)

theorem readString_literal {s : List Char} (rest : List Char) (hquote : '\'' ∉ s)
    (hplain : ∀ c ∈ s, isPlain c = true) :
    readString ('\'' :: (s ++ ['\'']) ++ '\n' :: rest) = some (s, '\n' :: rest) := by
  have htext : '\'' :: (s ++ ['\'']) ++ '\n' :: rest = '\'' :: (s ++ '\'' :: '\n' :: rest) := by simp
  rw [htext, readString]
  · exact readLiteral_content ('\n' :: rest) hquote hplain
  · intro tail heq
    exact absurd (List.cons.inj heq).1 (by decide)
  · intro tail heq
    match s with
    | [] => simp at heq
    | c :: s => exact hquote (by simp [(List.cons.inj (List.cons.inj heq).2).1])

theorem tripled_text (quote : Char) (s content rest : List Char) :
    tripled quote s content ++ '\n' :: rest = quote :: quote :: quote ::
      ((if '\n' ∈ s then ['\n'] else []) ++ content ++ closing quote rest) := by
  simp [tripled, closing]

theorem readString_longBasic (s rest : List Char) :
    readString (tripled '"' s (escaped true 0 s) ++ '\n' :: rest) = some (s, '\n' :: rest) := by
  have hbreaks := escaped_breaks true 0 s
  rw [tripled_text, readString,
    dropFirstBreak_tripled hbreaks.1 hbreaks.2 fun _ => rfl]
  refine readLongBasic_escaped rest ?_
  have hlength := length_le_escaped true 0 s
  simp only [List.length_append]
  omega

theorem readString_longLiteral {s : List Char} (rest : List Char)
    (hplain : ∀ c ∈ s, isPlain c = true ∨ c = '\n') (hruns : longestRun '\'' 0 s ≤ 2) :
    readString (tripled '\'' s s ++ '\n' :: rest) = some (s, '\n' :: rest) := by
  have hreturn : '\r' ∉ s := fun hmem => by simpa [isPlain] using hplain '\r' hmem
  rw [tripled_text, readString, dropFirstBreak_tripled hreturn id fun _ => rfl]
  exact readLongLiteral_content rest hplain hruns

/-- A string is read back from whatever quotes it was put in. -/
theorem readString_stringText (s rest : List Char) :
    readString (stringText s ++ '\n' :: rest) = some (s, '\n' :: rest) := by
  have hplain : ∀ c ∈ s, s.any needsCode = false → isPlain c = true ∨ c = '\n' := by
    intro c hc hcoded
    by_cases hbreak : c = '\n'
    · exact .inr hbreak
    · exact .inl (isPlain_of_needsCode_eq_false (by simpa using List.any_eq_false.mp hcoded c hc) hbreak)
  unfold stringText
  dsimp only
  split
  · exact readString_basic s rest
  split
  · next h =>
    simp only [Bool.and_eq_true, Bool.not_eq_true', decide_eq_true_eq, decide_eq_false_iff_not] at h
    refine readString_literal rest (notMem_of_longestRun h.1.2) fun c hc => ?_
    exact (hplain c hc h.1.1).resolve_right fun hbreak => h.2 (hbreak ▸ hc)
  split
  · exact readString_longBasic s rest
  split
  · next h =>
    simp only [Bool.and_eq_true, Bool.not_eq_true', decide_eq_true_eq] at h
    exact readString_longLiteral rest (fun c hc => hplain c hc h.1) h.2
  split
  · exact readString_longBasic s rest
  · exact readString_basic s rest

end FleetHealth.Toml
