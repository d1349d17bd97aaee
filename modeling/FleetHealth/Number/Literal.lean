import FleetHealth.Number.Binary64

/-! # Decimal literals

The texts that stand for a double: an optional sign, digits with at most one point
and at least one digit, an optional exponent, or one of the words for infinity and
for not-a-number in any letter case.
-/
namespace FleetHealth.Number

def cutSign : List Char → Bool × List Char
  | '-' :: rest => (true, rest)
  | '+' :: rest => (false, rest)
  | s => (false, s)

/-- The exponent after the letter `e`; the whole rest of the text must belong to it. -/
def readExponent? : List Char → Option Int
  | [] => some 0
  | c :: rest =>
    if c = 'e' || c = 'E' then
      let (negative, digits) := cutSign rest
      (readDigits? digits).map fun n => if negative then -(n : Int) else n
    else none

def readMagnitude? (s : List Char) : Option Binary64 :=
  let whole := s.takeWhile isDigit
  let rest := s.dropWhile isDigit
  let (fraction, rest) := match rest with
    | '.' :: tail => (tail.takeWhile isDigit, tail.dropWhile isDigit)
    | _ => ([], rest)
  if whole = [] ∧ fraction = [] then none
  else (readExponent? rest).map fun e =>
    .ofDecimal (digitsValue (whole ++ fraction)) (e - fraction.length)

def readDouble? (s : List Char) : Option Binary64 :=
  let (negative, body) := cutSign s
  let word := body.map Char.toLower
  let magnitude :=
    if word = "inf".toList || word = "infinity".toList then some Binary64.infinity
    else if word = "nan".toList then some Binary64.nan
    else readMagnitude? body
  magnitude.map fun x => if negative then x.neg else x

end FleetHealth.Number
