import FleetHealth.Proofs.Number.DecimalTexts
import FleetHealth.Proofs.Toml.StringTexts
import FleetHealth.Toml.Reader

/-! # Values read back

A value stands at the end of its line. Digits up to a line end are neither a date nor a
float, since both of these have something else than digits in them.
-/
namespace FleetHealth.Toml

open Number Text

def Scalar.toJson : Scalar → Json
  | .text s => .text s
  | .integer n => .nat n
  | .bool b => .bool b
  | .emptyList => .list []

/-! ## Integers -/

theorem readFixed_rest {ds rest s : List Char} {count low high v : Nat}
    (hds : ∀ c ∈ ds, isDigit c = true) (h : readFixed count low high (ds ++ '\n' :: rest) = some (v, s)) :
    ∃ more, (∀ c ∈ more, isDigit c = true) ∧ s = more ++ '\n' :: rest := by
  unfold readFixed at h
  dsimp only at h
  split at h
  · next hfixed =>
    have hcount : count ≤ ds.length := by
      refine Nat.le_of_not_lt fun hshort => ?_
      have hmem : '\n' ∈ (ds ++ '\n' :: rest).take count := by
        obtain ⟨k, rfl⟩ : ∃ k, count = ds.length + (k + 1) := ⟨count - ds.length - 1, by omega⟩
        simp [List.take_append]
      exact absurd (List.all_eq_true.mp hfixed.2.1 _ hmem) (by decide)
    refine ⟨ds.drop count, fun c hc => hds c (List.mem_of_mem_drop hc), ?_⟩
    rw [← (Prod.mk.inj (Option.some.inj h)).2, List.drop_append_of_le_length hcount]
  · cases h

theorem expect_digits {c : Char} {ds : List Char} (rest : List Char) (hc : isDigit c = false)
    (hbreak : c ≠ '\n') (hds : ∀ c ∈ ds, isDigit c = true) : expect c (ds ++ '\n' :: rest) = none := by
  match ds with
  | [] => simp [expect, Ne.symm hbreak]
  | d :: ds =>
    have hne : d ≠ c := by
      rintro rfl
      rw [hds d List.mem_cons_self] at hc
      cases hc
    simp [expect, hne]

/-- A date and a time begin with a number and a character that is no digit. -/
theorem expect_afterFixed {ds rest s : List Char} {count low high v : Nat} {c : Char}
    (hds : ∀ c ∈ ds, isDigit c = true) (hc : isDigit c = false) (hbreak : c ≠ '\n')
    (h : readFixed count low high (ds ++ '\n' :: rest) = some (v, s)) : expect c s = none := by
  obtain ⟨more, hmore, rfl⟩ := readFixed_rest hds h
  exact expect_digits rest hc hbreak hmore

theorem skipDateTime_digits {ds : List Char} (rest : List Char) (hds : ∀ c ∈ ds, isDigit c = true) :
    skipDateTime (ds ++ '\n' :: rest) = none := by
  have hdate : skipDate (ds ++ '\n' :: rest) = none := by
    refine Option.bind_eq_none_iff.mpr fun (year, s) hyear => ?_
    have hnone := expect_afterFixed (c := '-') hds rfl (by decide) hyear
    simp [hnone]
  have htime : skipTime (ds ++ '\n' :: rest) = none := by
    refine Option.bind_eq_none_iff.mpr fun (hour, s) hhour => ?_
    have hnone := expect_afterFixed (c := ':') hds rfl (by decide) hhour
    simp [hnone]
  rw [skipDateTime, hdate]
  exact htime

theorem readDigitRun_go (d : Char) {ds : List Char} (rest : List Char)
    (hds : ∀ c ∈ ds, isDigit c = true) :
    readDigitRun.go isDigit d (ds ++ '\n' :: rest) = (d :: ds, '\n' :: rest) := by
  induction ds generalizing d with
  | nil => rfl
  | cons e ds ih =>
    have he : isDigit e = true := hds e List.mem_cons_self
    have hrest := ih e fun c hc => hds c (List.mem_cons_of_mem e hc)
    rw [List.cons_append, readDigitRun.go, if_pos he, hrest]
    rintro _ _ rfl
    cases he

theorem readDecimal_decimal (n : Nat) (rest : List Char) :
    readDecimal (decimal n ++ '\n' :: rest) = some (decimal n, '\n' :: rest) := by
  obtain ⟨d, ds, hn, hdigits, hzero⟩ := decimal_eq_cons n
  by_cases hd : d = '0'
  · subst hd
    rw [hn, hzero rfl]
    rfl
  · rw [hn, List.cons_append, readDecimal, readDigitRun, if_pos (hdigits d List.mem_cons_self),
      readDigitRun_go d rest fun c hc => hdigits c (List.mem_cons_of_mem d hc)]
    exact fun _ h => absurd (List.cons.inj h).1 hd

theorem readNamedFloat_decimal (n : Nat) (rest : List Char) :
    readNamedFloat false (decimal n ++ rest) = none := by
  obtain ⟨d, ds, hn, hdigits, -⟩ := decimal_eq_cons n
  have hd : isDigit d = true := hdigits d List.mem_cons_self
  rw [hn, List.cons_append, readNamedFloat] <;> rintro _ h <;> obtain rfl := (List.cons.inj h).1 <;>
    cases hd

theorem readFloat_decimal (n : Nat) (rest : List Char) :
    readFloat (decimal n ++ '\n' :: rest) = none := by
  simp [readFloat, cutSign_decimal, readNamedFloat_decimal, readDecimal_decimal, readFraction,
    readPower]

theorem readInteger_decimal {n : Nat} (hn : n < Nat.pow 2 63) (rest : List Char) :
    readInteger (decimal n ++ '\n' :: rest) = some (.nat n, '\n' :: rest) := by
  have hvalue : signedValue? false n = some (.nat n) := if_pos hn
  rw [readInteger]
  · simp [cutSign_decimal, readDecimal_decimal, hvalue]
  all_goals
    intro tail h
    obtain ⟨d, ds, hcons, -, hzero⟩ := decimal_eq_cons n
    rw [hcons] at h
    have hd := (List.cons.inj h).1
    rw [hzero hd] at h
    simp at h

theorem readNumber_decimal {n : Nat} (hn : n < Nat.pow 2 63) (rest : List Char) :
    readNumber (decimal n ++ '\n' :: rest) = some (.nat n, '\n' :: rest) := by
  have hdate : readDateTime (decimal n ++ '\n' :: rest) = none := by
    rw [readDateTime, skipDateTime_digits rest fun c hc => isDigit_of_mem_decimal hc]
    rfl
  rw [readNumber, hdate, readFloat_decimal, readInteger_decimal hn]
  rfl

/-! ## Any value -/

/-- Truth values, lists and braces are told by how they begin, numbers and strings by the rest. -/
theorem readValue_cons {depth : Nat} {c : Char} {text : List Char} (hc : c ∉ ['t', 'f', '[', '\x7b']) :
    readValue depth (c :: text) = if startsNumber c then readNumber (c :: text)
      else (readString (c :: text)).map fun r => (.text (String.ofList r.1), r.2) := by
  rw [readValue] <;> intros <;> subst_vars <;> exact hc (by decide)

theorem readValue_number {depth : Nat} {c : Char} {text : List Char} (hc : isDigit c = true) :
    readValue depth (c :: text) = readNumber (c :: text) := by
  have hplain : c ∉ ['t', 'f', '[', '\x7b'] := by
    intro hmem
    simp only [List.mem_cons, List.not_mem_nil, or_false] at hmem
    rcases hmem with rfl | rfl | rfl | rfl <;> exact absurd hc (by decide)
  rw [readValue_cons hplain, if_pos (by simp [startsNumber, hc])]

theorem readValue_string {depth : Nat} {c : Char} {text : List Char} (hc : c = '"' ∨ c = '\'') :
    readValue depth (c :: text) =
      (readString (c :: text)).map fun r => (.text (String.ofList r.1), r.2) := by
  rcases hc with rfl | rfl <;> exact readValue_cons (by decide)

theorem stringText_cons (s : List Char) :
    ∃ c text, stringText s = c :: text ∧ (c = '"' ∨ c = '\'') := by
  unfold stringText
  dsimp only
  split_ifs
  · exact ⟨_, _, rfl, .inl rfl⟩
  · exact ⟨_, _, rfl, .inr rfl⟩
  · exact ⟨_, _, rfl, .inl rfl⟩
  · exact ⟨_, _, rfl, .inr rfl⟩
  · exact ⟨_, _, rfl, .inl rfl⟩
  · exact ⟨_, _, rfl, .inl rfl⟩

/-- A value that can be written is read back, up to the end of its line. -/
theorem readValue_text {v : Scalar} {text : List Char} (h : v.text? = some text) (rest : List Char) :
    readValue maxDepth (text ++ '\n' :: rest) = some (v.toJson, '\n' :: rest) := by
  cases v with
  | text s =>
    cases h
    obtain ⟨c, text, hcons, hc⟩ := stringText_cons s.toList
    have hstring := readString_stringText s.toList rest
    rw [hcons, List.cons_append] at hstring ⊢
    rw [readValue_string hc, hstring]
    simp [Scalar.toJson]
  | integer n =>
    rw [Scalar.text?] at h
    split at h
    · next hn =>
      cases h
      obtain ⟨d, ds, hcons, hdigits, -⟩ := decimal_eq_cons n
      have hnumber := readNumber_decimal hn rest
      rw [hcons, List.cons_append] at hnumber ⊢
      rw [readValue_number (hdigits d List.mem_cons_self), hnumber]
      rfl
    · cases h
  | bool b =>
    cases h
    cases b <;> rfl
  | emptyList =>
    cases h
    rfl

end FleetHealth.Toml
