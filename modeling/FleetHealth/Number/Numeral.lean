/-! # Decimal numerals

Reading of integers in decimal digits, with a leading plus sign allowed and a
bound that the value must not exceed, and the bounds of the machine words that
counters and timestamps are held in.
-/
namespace FleetHealth.Number

/-- The largest value of a 64-bit counter. -/
def counterMax : Nat := 18446744073709551615

/-- The largest value of a 128-bit amount. -/
def amountMax : Nat := 340282366920938463463374607431768211455

/-- The largest value of a 256-bit word, in which amounts are multiplied. -/
def wideMax : Nat :=
  115792089237316195423570985008687907853269984665640564039457584007913129639935

def portMax : Nat := 65535

def wrapCounter (n : Nat) : Nat := n % (counterMax + 1)

def wrapAmount (n : Nat) : Nat := n % (amountMax + 1)

def wrapWide (n : Nat) : Nat := n % (wideMax + 1)

def capCounter (n : Nat) : Nat := min n counterMax

def sumOf (counters : List Nat) : Nat := counters.foldr (· + ·) 0

/-- Adding to a counter, where the result still is one. -/
def addCounters? (m n : Nat) : Option Nat := if m + n ≤ counterMax then some (m + n) else none

def sumCounters? (counters : List Nat) : Option Nat := counters.foldlM addCounters? 0

def isDigit (c : Char) : Bool := '0' ≤ c && c ≤ '9'

def digitValue (c : Char) : Nat := c.toNat - '0'.toNat

/-- The value of a list of digits, most significant first. -/
def digitsValue (ds : List Char) : Nat :=
  ds.foldl (fun n d => 10 * n + digitValue d) 0

def readDigits? (s : List Char) : Option Nat :=
  if s ≠ [] ∧ s.all isDigit then some (digitsValue s) else none

def dropPlus : List Char → List Char
  | '+' :: rest => rest
  | s => s

def readUnsigned? (bound : Nat) (s : List Char) : Option Nat :=
  (readDigits? (dropPlus s)).filter (· ≤ bound)

def readSigned? : List Char → Option Int
  | '-' :: rest => ((readDigits? rest).filter (· ≤ Nat.pow 2 63)).map fun n => -(n : Int)
  | s => ((readDigits? (dropPlus s)).filter (· < Nat.pow 2 63)).map fun n => (n : Int)

def readCounter? (s : List Char) : Option Nat := readUnsigned? counterMax s

def decimal (n : Nat) : List Char := Nat.toDigits 10 n

def padded (width n : Nat) : List Char :=
  List.replicate (width - (decimal n).length) '0' ++ decimal n

theorem readUnsigned?_le {bound n : Nat} {s : List Char} (h : readUnsigned? bound s = some n) :
    n ≤ bound := by
  simp only [readUnsigned?, Option.filter_eq_some_iff, decide_eq_true_eq] at h
  exact h.2

end FleetHealth.Number
