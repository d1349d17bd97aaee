import FleetHealth.Number.Literal
import Mathlib.Data.List.Induction

/-! # Decimal texts

A decimal text has digits only, no zero in front unless it is zero's own, and the value it
was written for. It is the only text of that kind with its value.
-/
namespace FleetHealth.Number

theorem isDigit_eq (c : Char) : isDigit c = c.isDigit := rfl

theorem isDigit_of_mem_decimal {n : Nat} {c : Char} (h : c ∈ decimal n) : isDigit c = true := by
  rw [isDigit_eq]
  exact Nat.isDigit_of_mem_toDigits (by decide) (by decide) h

@[simp] theorem digitsValue_decimal (n : Nat) : digitsValue (decimal n) = n := by
  have hvalue := Nat.ofDigitChars_ten_toDigits (n := n)
  rwa [Nat.ofDigitChars_eq_foldl] at hvalue

theorem decimal_ne_nil (n : Nat) : decimal n ≠ [] := Nat.toDigits_ne_nil

theorem readDigits?_decimal (n : Nat) : readDigits? (decimal n) = some n := by
  have hall : (decimal n).all isDigit = true :=
    List.all_eq_true.mpr fun c hc => isDigit_of_mem_decimal hc
  rw [readDigits?, if_pos ⟨decimal_ne_nil n, hall⟩, digitsValue_decimal]

/-- Only zero begins with a zero. -/
theorem decimal_of_zero_cons {n : Nat} {ds : List Char} (h : decimal n = '0' :: ds) : ds = [] := by
  induction n using Nat.strongRecOn generalizing ds with
  | ind n ih =>
    rw [decimal, Nat.toDigits_eq_if (by decide)] at h
    split at h
    · exact (List.cons.inj h).2.symm
    · next hlarge =>
      obtain ⟨d, front, hfront⟩ := List.exists_cons_of_ne_nil (decimal_ne_nil (n / 10))
      change decimal (n / 10) ++ _ = _ at h
      rw [hfront, List.cons_append] at h
      obtain ⟨rfl, -⟩ := List.cons.inj h
      have hnil := ih (n / 10) (by omega) hfront
      have hvalue := digitsValue_decimal (n / 10)
      rw [hfront, hnil] at hvalue
      have hzero : n / 10 = 0 := hvalue.symm
      omega

/-- The first digit with those after it. -/
theorem decimal_eq_cons (n : Nat) : ∃ d ds, decimal n = d :: ds ∧
    (∀ c ∈ d :: ds, isDigit c = true) ∧ (d = '0' → ds = []) := by
  obtain ⟨d, ds, hn⟩ := List.exists_cons_of_ne_nil (decimal_ne_nil n)
  refine ⟨d, ds, hn, fun c hc => isDigit_of_mem_decimal (hn ▸ hc), ?_⟩
  rintro rfl
  exact decimal_of_zero_cons hn

theorem eq_zero_or_decimal (n : Nat) : n = 0 ∨ ∃ d ds, decimal n = d :: ds ∧ d ≠ '0' := by
  obtain ⟨d, ds, hn, -, hzero⟩ := decimal_eq_cons n
  by_cases hd : d = '0'
  · have hvalue := digitsValue_decimal n
    rw [hn, hd, hzero hd] at hvalue
    exact .inl hvalue.symm
  · exact .inr ⟨d, ds, hn, hd⟩

theorem cutSign_decimal (n : Nat) (rest : List Char) :
    cutSign (decimal n ++ rest) = (false, decimal n ++ rest) := by
  obtain ⟨d, ds, hn, hdigits, -⟩ := decimal_eq_cons n
  have hd : isDigit d = true := hdigits d List.mem_cons_self
  rw [hn, List.cons_append, cutSign] <;> rintro _ h <;> obtain rfl := (List.cons.inj h).1 <;> cases hd

/-! ## Digits without a zero in front -/

theorem digitsValue_concat (ds : List Char) (d : Char) :
    digitsValue (ds ++ [d]) = 10 * digitsValue ds + digitValue d := by
  simp [digitsValue]

theorem digitChar_digitValue {c : Char} (h : isDigit c = true) :
    digitValue c < 10 ∧ (digitValue c).digitChar = c := by
  have hdigits : ∀ n < 58, isDigit (Char.ofNat n) = true →
      digitValue (Char.ofNat n) < 10 ∧ (digitValue (Char.ofNat n)).digitChar = Char.ofNat n := by decide
  have hsmall : c.toNat < 58 := by
    simp only [isDigit, Bool.and_eq_true, decide_eq_true_eq] at h
    exact Nat.lt_succ_of_le h.2
  have hc := hdigits c.toNat hsmall
  rw [Char.ofNat_toNat] at hc
  exact hc h

/-- Digits that do not begin with a zero, unless that is all, are the decimal text of their value. -/
theorem decimal_digitsValue {ds : List Char} (hds : ds ≠ []) (hdigits : ∀ c ∈ ds, isDigit c = true)
    (hzero : ∀ rest, ds = '0' :: rest → rest = []) : decimal (digitsValue ds) = ds := by
  induction ds using List.reverseRecOn with
  | nil => contradiction
  | append_singleton front d ih =>
    obtain ⟨hsmall, hd⟩ := digitChar_digitValue (hdigits d (by simp))
    rw [digitsValue_concat, decimal, Nat.toDigits_eq_if (by decide)]
    by_cases hfront : front = []
    · subst hfront
      rw [show digitsValue [] = 0 from rfl, Nat.mul_zero, Nat.zero_add, if_pos hsmall, hd]
      rfl
    · have hkept : decimal (digitsValue front) = front := by
        refine ih hfront (fun c hc => hdigits c (List.mem_append_left _ hc)) ?_
        rintro rest rfl
        simpa using hzero (rest ++ [d]) rfl
      have hpositive : digitsValue front ≠ 0 := by
        intro hvalue
        rw [hvalue] at hkept
        have hlead := hzero [d] (by rw [← hkept]; rfl)
        cases hlead
      have hquotient : (10 * digitsValue front + digitValue d) / 10 = digitsValue front := by omega
      have hremainder : (10 * digitsValue front + digitValue d) % 10 = digitValue d := by omega
      rw [if_neg (by omega), hquotient, hremainder, hd]
      exact congrArg (· ++ [d]) hkept

end FleetHealth.Number
