import FleetHealth.Json.Basic
import FleetHealth.Number.Literal
import FleetHealth.Text.Reader

/-! # Numbers and dates of a document

Integers have 64 bits and a sign. Digits may be grouped by single underscores. A date
is kept as a record with its text, since no setting has one as its value.
-/
namespace FleetHealth.Toml

open Number Text

/-- Digits with single underscores between them, without the underscores. -/
def readDigitRun (isDigit : Char → Bool) : Reader (List Char)
  | [] => none
  | c :: rest => if isDigit c then some (go c rest) else none
where
  /-- The digits from one that was read. -/
  go (c : Char) : List Char → List Char × List Char
    | '_' :: d :: rest =>
      if isDigit d then
        let r := go d rest
        (c :: r.1, r.2)
      else ([c], '_' :: d :: rest)
    | d :: rest =>
      if isDigit d then
        let r := go d rest
        (c :: r.1, r.2)
      else ([c], d :: rest)
    | [] => ([c], [])

def readDecimal : Reader (List Char)
  | '0' :: rest => some (['0'], rest)
  | s => readDigitRun isDigit s

def signedValue? (negative : Bool) (n : Nat) : Option Json :=
  if negative then if n ≤ Nat.pow 2 63 then some (.int (-(n : Int))) else none
  else if n < Nat.pow 2 63 then some (.int n) else none

def isHexDigit (c : Char) : Bool := (hexValue? c).isSome

def isOctalDigit (c : Char) : Bool := '0' ≤ c && c ≤ '7'

def isBinaryDigit (c : Char) : Bool := c = '0' || c = '1'

def valueInBase (base : Nat) (ds : List Char) : Nat :=
  ds.foldl (fun n d => base * n + (hexValue? d).getD 0) 0

def readInBase (base : Nat) (isDigit : Char → Bool) : Reader Json := fun s => do
  let (ds, rest) ← readDigitRun isDigit s
  let v ← signedValue? false (valueInBase base ds)
  some (v, rest)

def readInteger : Reader Json
  | '0' :: 'x' :: rest => readInBase 16 isHexDigit rest
  | '0' :: 'o' :: rest => readInBase 8 isOctalDigit rest
  | '0' :: 'b' :: rest => readInBase 2 isBinaryDigit rest
  | s => do
    let (negative, s) := cutSign s
    let (ds, rest) ← readDecimal s
    let v ← signedValue? negative (digitsValue ds)
    some (v, rest)

def readFraction : List Char → Option (List Char × List Char)
  | '.' :: rest => readDigitRun isDigit rest
  | _ => none

def readPower : List Char → Option (Int × List Char)
  | c :: rest =>
    if c = 'e' ∨ c = 'E' then
      let (negative, rest) := cutSign rest
      (readDigitRun isDigit rest).map fun r =>
        (if negative then -(digitsValue r.1 : Int) else digitsValue r.1, r.2)
    else none
  | [] => none

def signedDouble (negative : Bool) (x : Binary64) : Binary64 := if negative then x.neg else x

def readNamedFloat (negative : Bool) : Reader Json
  | 'i' :: 'n' :: 'f' :: rest => some (.double (signedDouble negative .infinity), rest)
  | 'n' :: 'a' :: 'n' :: rest => some (.double .nan, rest)
  | _ => none

/-- A float has a fraction, an exponent or both. Beyond the doubles there is none. -/
def readFloat : Reader Json := fun s =>
  let (negative, s) := cutSign s
  match readNamedFloat negative s with
  | some r => some r
  | none => do
    let (whole, s) ← readDecimal s
    let (fraction, power, rest) ← match readFraction s with
      | some (fraction, rest) =>
        match readPower rest with
        | some (power, rest) => some (fraction, power, rest)
        | none => some (fraction, 0, rest)
      | none => (readPower s).map fun r => ([], r.1, r.2)
    let x := Binary64.ofDecimal (digitsValue (whole ++ fraction)) (power - fraction.length)
    if !negative && x = .infinity then none
    else some (.double (signedDouble negative x), rest)

def readFixed (digits low high : Nat) : Reader Nat := fun s =>
  let ds := s.take digits
  if ds.length = digits ∧ ds.all isDigit ∧ low ≤ digitsValue ds ∧ digitsValue ds ≤ high then
    some (digitsValue ds, s.drop digits)
  else none

def expect (c : Char) : List Char → Option (List Char)
  | d :: rest => if d = c then some rest else none
  | [] => none

def daysInMonth (year month : Nat) : Nat :=
  if month = 2 then
    if (year % 4 = 0 ∧ year % 100 ≠ 0) ∨ year % 400 = 0 then 29 else 28
  else if month ∈ [4, 6, 9, 11] then 30
  else 31

def skipDate (s : List Char) : Option (List Char) := do
  let (year, s) ← readFixed 4 0 9999 s
  let s ← expect '-' s
  let (month, s) ← readFixed 2 1 12 s
  let s ← expect '-' s
  let (_, s) ← readFixed 2 1 (daysInMonth year month) s
  some s

def skipTime (s : List Char) : Option (List Char) := do
  let (_, s) ← readFixed 2 0 23 s
  let s ← expect ':' s
  let (_, s) ← readFixed 2 0 59 s
  let s ← expect ':' s
  let (_, s) ← readFixed 2 0 60 s
  match s with
  | '.' :: rest => if (rest.takeWhile isDigit) = [] then none else some (rest.dropWhile isDigit)
  | s => some s

def skipOffset (s : List Char) : Option (List Char) :=
  match s with
  | [] => some []
  | c :: rest =>
    if c = 'Z' ∨ c = 'z' then some rest
    else if c = '+' ∨ c = '-' then do
      let (_, s) ← readFixed 2 0 23 rest
      let s ← expect ':' s
      let (_, s) ← readFixed 2 0 59 s
      some s
    else some s

def skipDateTime (s : List Char) : Option (List Char) :=
  match skipDate s with
  | none => skipTime s
  | some rest =>
    match rest with
    | c :: after =>
      if c = 'T' ∨ c = 't' then (skipTime after).bind skipOffset
      else if c = ' ' then
        match skipTime after with
        | some rest => skipOffset rest
        | none => some rest
      else some rest
    | [] => some []

def dateField : String := "$date"

def readDateTime : Reader Json := fun s =>
  (skipDateTime s).map fun rest =>
    (.object [(dateField, .text (String.ofList (s.take (s.length - rest.length))))], rest)

def readNumber : Reader Json := fun s =>
  (readDateTime s).or ((readFloat s).or (readInteger s))

end FleetHealth.Toml
