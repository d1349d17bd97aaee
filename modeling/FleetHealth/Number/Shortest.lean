import FleetHealth.Number.Binary64

/-! # Shortest decimals

The decimal with the fewest digits that reads back to a given double: the reals
that round to `m * 2 ^ q` form an interval, and the first decimal grid, from
coarse to fine, with a point in that interval decides the digits. Of two points on
that grid the nearer one is taken, and the upper one on an exact tie.
-/
namespace FleetHealth.Number

/-- The reals that round to one double, as numerators over a common denominator.
The ends belong to the interval when `closed`. -/
structure RoundingInterval where
  below : Nat
  value : Nat
  above : Nat
  den : Nat
  closed : Bool
deriving DecidableEq, Repr

/-- The interval around `m * 2 ^ q`. Halfway to a neighbour is half a unit, or a
quarter on the side of a narrow gap, so all is counted in quarters. -/
def RoundingInterval.around (m : Nat) (q : Int) (narrow : Bool) : RoundingInterval :=
  let scale := Nat.pow 2 (q - 2).toNat
  { below := (4 * m - (if narrow then 1 else 2)) * scale
    value := 4 * m * scale
    above := (4 * m + 2) * scale
    den := Nat.pow 2 (2 - q).toNat
    closed := m % 2 = 0 }

namespace RoundingInterval

/-- The interval on the decimal grid of step `10 ^ e`: the same reals in units of the step. -/
def onGrid (i : RoundingInterval) (e : Int) : RoundingInterval :=
  { i with
    below := i.below * Nat.pow 10 (-e).toNat
    value := i.value * Nat.pow 10 (-e).toNat
    above := i.above * Nat.pow 10 (-e).toNat
    den := i.den * Nat.pow 10 e.toNat }

def contains (i : RoundingInterval) (d : Nat) : Bool :=
  let p := d * i.den
  (i.below < p || (i.closed && i.below = p)) && (p < i.above || (i.closed && p = i.above))

def nearest? (i : RoundingInterval) : Option Nat :=
  let low := i.value / i.den
  let high := low + 1
  match i.contains low && low ≠ 0, i.contains high with
  | true, true => some (if 2 * i.value < (low + high) * i.den then low else high)
  | true, false => some low
  | false, true => some high
  | false, false => none

/-- The least `k` with `value / den < 10 ^ k`. -/
def magnitude (i : RoundingInterval) : Int :=
  if i.den ≤ i.value then (decimal (i.value / i.den)).length
  else
    let a := (decimal (i.den / i.value)).length - 1
    if i.value * Nat.pow 10 a = i.den then 1 - (a : Int) else -(a : Int)

end RoundingInterval

def stripZeros : Nat → Nat → Int → Nat × Int
  | 0, d, e => (d, e)
  | fuel + 1, d, e => if d % 10 = 0 ∧ d ≠ 0 then stripZeros fuel (d / 10) (e + 1) else (d, e)

/-- Digits and exponent of the shortest decimal for `m * 2 ^ q` with `m` not zero. Seventeen
digits identify every double; were they not enough, the exact value would be given. -/
def shortest (m : Nat) (q : Int) (narrow : Bool) : Nat × Int :=
  let i := RoundingInterval.around m q narrow
  let k := i.magnitude
  let found := (List.range 17).findSome? fun n =>
    let e := k - (n + 1 : Nat)
    (i.onGrid e).nearest?.map fun d => (d, e)
  match found with
  | some (d, e) => stripZeros 20 d e
  | none => (m * Nat.pow 2 q.toNat * Nat.pow 5 (-q).toNat, min q 0)

end FleetHealth.Number
