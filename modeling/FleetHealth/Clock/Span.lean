import FleetHealth.Number.Numeral

/-! # Lengths of time in messages -/
namespace FleetHealth.Clock

open Number

def thousandths (ms : Nat) : List Char :=
  ((padded 3 ms).reverse.dropWhile (· = '0')).reverse

/-- Milliseconds in the largest unit that is not zero: `5s`, `1.5s`, `50ms`, `0ns`. -/
def spanText (ms : Nat) : String :=
  if ms = 0 then "0ns"
  else if ms < 1000 then String.ofList (decimal ms ++ "ms".toList)
  else if ms % 1000 = 0 then String.ofList (decimal (ms / 1000) ++ ['s'])
  else String.ofList (decimal (ms / 1000) ++ '.' :: (thousandths (ms % 1000) ++ ['s']))

end FleetHealth.Clock
