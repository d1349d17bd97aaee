import FleetHealth.Number.Numeral

/-! # Double-precision numbers

`Binary64` is a number in the IEEE 754 format binary64, held as its bit pattern.
The monitor does no arithmetic on such numbers: it reads them from decimals,
compares them with zero, truncates them to counters and writes them. All of that
goes through `view`, which splits a pattern into sign, significand and exponent.
-/
namespace FleetHealth.Number

structure Binary64 where
  bits : UInt64
deriving DecidableEq, Repr

namespace Binary64

/-- A number by its parts; `finite` is `m * 2 ^ q`, negated when `negative`.
The gap to the next smaller magnitude is half as wide when `narrow`. -/
inductive View where
  | nan
  | infinite (negative : Bool)
  | finite (negative : Bool) (m : Nat) (q : Int) (narrow : Bool)
deriving DecidableEq, Repr

def negative (x : Binary64) : Bool := Nat.pow 2 63 ≤ x.bits.toNat

def biasedExponent (x : Binary64) : Nat := x.bits.toNat / Nat.pow 2 52 % Nat.pow 2 11

def fraction (x : Binary64) : Nat := x.bits.toNat % Nat.pow 2 52

def view (x : Binary64) : View :=
  if x.biasedExponent = 2047 then
    if x.fraction = 0 then .infinite x.negative else .nan
  else if x.biasedExponent = 0 then .finite x.negative x.fraction (-1074) false
  else .finite x.negative (Nat.pow 2 52 + x.fraction) ((x.biasedExponent : Int) - 1075)
    (x.fraction = 0 && 1 < x.biasedExponent)

def zero : Binary64 := ⟨0⟩

def nan : Binary64 := ⟨0x7FF8000000000000⟩

def infinity : Binary64 := ⟨0x7FF0000000000000⟩

def neg (x : Binary64) : Binary64 := ⟨x.bits ^^^ 0x8000000000000000⟩

/-- The quotient rounded to the nearest whole, ties to even. -/
def roundedQuotient (num den : Nat) : Nat :=
  let q := num / den
  let r := num % den
  if 2 * r < den ∨ (2 * r = den ∧ q % 2 = 0) then q else q + 1

def atLeastPower (num den : Nat) (k : Int) : Bool :=
  if 0 ≤ k then den * Nat.pow 2 k.toNat ≤ num else den ≤ num * Nat.pow 2 (-k).toNat

/-- The exponent of the last place of a double near the fraction, which has 53 places
unless it is too small for that. -/
def lastPlace (num den : Nat) : Int :=
  let k : Int := (num.log2 : Int) - den.log2
  let leading := if atLeastPower num den k then k else k - 1
  max (leading - 52) (-1074)

/-- The bit pattern of a positive fraction: the number of units in the last place, with the
position of that place in front. A carry out of the units goes into the position. -/
def patternOf (num den : Nat) : Nat :=
  let q := lastPlace num den
  let significand :=
    if 0 ≤ q then roundedQuotient num (den * Nat.pow 2 q.toNat)
    else roundedQuotient (num * Nat.pow 2 (-q).toNat) den
  (q + 1074).toNat * Nat.pow 2 52 + significand

def ofFraction (num den : Nat) : Binary64 := ⟨.ofNat (min (patternOf num den) infinity.bits.toNat)⟩

/-- The double nearest to `m * 10 ^ e`, ties to even. Decimals beyond the range of
exponents are settled before any power of ten is formed. -/
def ofDecimal (m : Nat) (e : Int) : Binary64 :=
  if m = 0 then zero
  else if 400 < e then infinity
  else if e + (decimal m).length < -400 then zero
  else if 0 ≤ e then ofFraction (m * Nat.pow 10 e.toNat) 1
  else ofFraction m (Nat.pow 10 (-e).toNat)

def ofNat (n : Nat) : Binary64 := ofDecimal n 0

def ofInt : Int → Binary64
  | .ofNat n => ofNat n
  | .negSucc n => (ofNat (n + 1)).neg

/-- The whole part of a number that is neither negative nor infinite, cut off at the
largest counter; `none` for the others. Negative zero counts as zero. -/
def toCounter? (x : Binary64) : Option Nat :=
  match x.view with
  | .nan | .infinite _ => none
  | .finite negative m q _ =>
    if negative && m ≠ 0 then none
    else some (capCounter (if 0 ≤ q then m * Nat.pow 2 q.toNat else m / Nat.pow 2 (-q).toNat))

theorem toCounter?_le {x : Binary64} {n : Nat} (h : x.toCounter? = some n) : n ≤ counterMax := by
  unfold toCounter? at h
  split at h
  · cases h
  · cases h
  · split at h
    · cases h
    · cases h
      exact Nat.min_le_right _ _

end Binary64

end FleetHealth.Number
