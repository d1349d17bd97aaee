import FleetHealth.Number.Numeral
import Mathlib.Algebra.Order.BigOperators.Group.List
import Mathlib.Algebra.Order.Ring.Nat

/-! # Numbers within their words

What fits into a word is held as it is, and how far sums can go whose terms are bounded.
-/
namespace FleetHealth.Number

theorem toNat_le_counterMax (n : UInt64) : n.toNat ≤ counterMax := Nat.le_of_lt_succ n.toNat_lt

theorem wrapCounter_le (n : Nat) : wrapCounter n ≤ counterMax :=
  Nat.le_of_lt_succ (Nat.mod_lt _ (Nat.succ_pos _))

theorem wrapCounter_of_le {n : Nat} (h : n ≤ counterMax) : wrapCounter n = n :=
  Nat.mod_eq_of_lt (Nat.lt_succ_of_le h)

theorem wrapAmount_of_le {n : Nat} (h : n ≤ amountMax) : wrapAmount n = n :=
  Nat.mod_eq_of_lt (Nat.lt_succ_of_le h)

theorem wrapWide_of_le {n : Nat} (h : n ≤ wideMax) : wrapWide n = n :=
  Nat.mod_eq_of_lt (Nat.lt_succ_of_le h)

theorem capCounter_of_le {n : Nat} (h : n ≤ counterMax) : capCounter n = n := Nat.min_eq_left h

theorem sumOf_eq_sum (xs : List Nat) : sumOf xs = xs.sum := rfl

/-- What was added up so far is the sum of the counters passed, and it never falls again. -/
theorem foldlM_addCounters? (counters : List Nat) {n : Nat} (h : n ≤ counterMax) :
    counters.foldlM addCounters? n =
      if n + sumOf counters ≤ counterMax then some (n + sumOf counters) else none := by
  induction counters generalizing n with
  | nil => exact (if_pos h).symm
  | cons next rest ih =>
    have hsum : n + sumOf (next :: rest) = n + next + sumOf rest := (Nat.add_assoc ..).symm
    rw [List.foldlM_cons, addCounters?, hsum]
    split
    · next hfits => exact ih hfits
    · next hover =>
      have hlater : ¬n + next + sumOf rest ≤ counterMax := by omega
      rw [if_neg hlater]
      rfl

theorem sumCounters?_eq (counters : List Nat) :
    sumCounters? counters = if sumOf counters ≤ counterMax then some (sumOf counters) else none := by
  rw [sumCounters?, foldlM_addCounters? counters (Nat.zero_le _), Nat.zero_add]

/-- A sum of at most as many terms as a counter counts. -/
theorem sumOf_le_of_count {xs : List Nat} {bound : Nat} (hcount : xs.length ≤ counterMax)
    (h : ∀ x ∈ xs, x ≤ bound) : sumOf xs ≤ counterMax * bound :=
  calc sumOf xs ≤ xs.length * bound := List.sum_le_card_nsmul xs bound h
    _ ≤ counterMax * bound := Nat.mul_le_mul_right bound hcount

end FleetHealth.Number
