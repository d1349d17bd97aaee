import FleetHealth.Number.Numeral

/-! # Readers and hexadecimal digits -/
namespace FleetHealth.Text

open Number

/-- A reader takes what it wants from the front of a text and gives the rest back. -/
abbrev Reader (α : Type) := List Char → Option (α × List Char)

def hexValue? (c : Char) : Option Nat :=
  if isDigit c then some (digitValue c)
  else if 'a' ≤ c ∧ c ≤ 'f' then some (c.toNat - 'a'.toNat + 10)
  else if 'A' ≤ c ∧ c ≤ 'F' then some (c.toNat - 'A'.toNat + 10)
  else none

def hexDigits? (ds : List Char) : Option Nat :=
  ds.foldlM (fun n d => (hexValue? d).map (16 * n + ·)) 0

end FleetHealth.Text
