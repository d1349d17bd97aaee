import FleetHealth.Json.Basic
import FleetHealth.Number.Literal
import FleetHealth.Text.Reader

/-! # Reading JSON

A strict reader: one value, blanks around it and nothing else. Values may be nested
`maxDepth` deep. Integers that do not fit 64 bits become doubles, as does `-0`, and
a number beyond the doubles is refused.
-/
namespace FleetHealth.Json

open Number Text

def maxDepth : Nat := 127

def isSpace (c : Char) : Bool := c = ' ' || c = '\t' || c = '\n' || c = '\r'

def skipSpace (s : List Char) : List Char := s.dropWhile isSpace

def readUnit : Reader Nat
  | a :: b :: c :: d :: rest => (hexDigits? [a, b, c, d]).map (·, rest)
  | _ => none

/-- The character of a `u` escape. A leading surrogate needs its trailing one. -/
def readUnicode : Reader Char := fun s => do
  let (high, rest) ← readUnit s
  if 0xD800 ≤ high ∧ high < 0xDC00 then
    match rest with
    | '\\' :: 'u' :: rest =>
      let (low, rest) ← readUnit rest
      if 0xDC00 ≤ low ∧ low < 0xE000 then
        some (Char.ofNat (0x10000 + (high - 0xD800) * 0x400 + (low - 0xDC00)), rest)
      else none
    | _ => none
  else if 0xDC00 ≤ high ∧ high < 0xE000 then none
  else some (Char.ofNat high, rest)

def escaped? : Char → Option Char
  | '"' => some '"'
  | '\\' => some '\\'
  | '/' => some '/'
  | 'b' => some '\x08'
  | 'f' => some '\x0c'
  | 'n' => some '\n'
  | 'r' => some '\r'
  | 't' => some '\t'
  | _ => none

/-- The rest of a string after its opening quote, `fuel` characters long at most. -/
def readString : Nat → Reader (List Char)
  | 0, _ => none
  | fuel + 1, s =>
    let continued (c : Char) (rest : List Char) :=
      (readString fuel rest).map fun (cs, rest) => (c :: cs, rest)
    match s with
    | [] => none
    | '"' :: rest => some ([], rest)
    | '\\' :: 'u' :: rest => do
      let (c, rest) ← readUnicode rest
      continued c rest
    | '\\' :: e :: rest => do
      let c ← escaped? e
      continued c rest
    | c :: rest => if c.toNat < 0x20 then none else continued c rest

def readWhole : Reader (List Char)
  | '0' :: rest => some (['0'], rest)
  | s =>
    match s.takeWhile isDigit with
    | [] => none
    | ds => some (ds, s.dropWhile isDigit)

def readFraction : Reader (Option (List Char))
  | '.' :: rest =>
    match rest.takeWhile isDigit with
    | [] => none
    | ds => some (some ds, rest.dropWhile isDigit)
  | s => some (none, s)

def readPower : Reader (Option Int)
  | c :: rest =>
    if c = 'e' ∨ c = 'E' then
      let (negative, rest) := cutSign rest
      match rest.takeWhile isDigit with
      | [] => none
      | ds => some (some (if negative then -(digitsValue ds : Int) else digitsValue ds),
          rest.dropWhile isDigit)
    else some (none, c :: rest)
  | [] => some (none, [])

def finite? (negative : Bool) (x : Binary64) : Option JsonNumber :=
  if x = .infinity then none else some (.double (if negative then x.neg else x))

def integer? (negative : Bool) (n : Nat) : Option JsonNumber :=
  if negative then
    if n ≠ 0 ∧ n ≤ Nat.pow 2 63 then some (.negative (-(n : Int))) else finite? true (.ofNat n)
  else if n ≤ counterMax then some (.natural n) else finite? false (.ofNat n)

def readNumber : Reader JsonNumber := fun s => do
  let (negative, s) := match s with
    | '-' :: rest => (true, rest)
    | s => (false, s)
  let (whole, s) ← readWhole s
  let (fraction, s) ← readFraction s
  let (power, s) ← readPower s
  let number ← match fraction, power with
    | none, none => integer? negative (digitsValue whole)
    | _, _ =>
      let digits := fraction.getD []
      finite? negative
        (.ofDecimal (digitsValue (whole ++ digits)) (power.getD 0 - digits.length))
  some (number, s)

def readItems {α : Type} (item : Reader α) (close : Char) : Nat → Reader (List α)
  | 0, _ => none
  | fuel + 1, s => do
    let (first, s) ← item s
    match skipSpace s with
    | ',' :: rest => (readItems item close fuel rest).map fun (more, rest) => (first :: more, rest)
    | c :: rest => if c = close then some ([first], rest) else none
    | [] => none

def readSequence {α : Type} (item : Reader α) (close : Char) : Reader (List α) := fun s =>
  match skipSpace s with
  | [] => none
  | c :: rest => if c = close then some ([], rest) else readItems item close (s.length + 1) s

def readField (value : Reader Json) : Reader (String × Json) := fun s =>
  match skipSpace s with
  | '"' :: rest => do
    let (name, rest) ← readString (rest.length + 1) rest
    match skipSpace rest with
    | ':' :: rest =>
      let (v, rest) ← value rest
      some ((String.ofList name, v), rest)
    | _ => none
  | _ => none

/-- One value, lists and objects nested at most `depth` deep. -/
def readValue (depth : Nat) : Reader Json := fun s =>
  match skipSpace s with
  | 'n' :: 'u' :: 'l' :: 'l' :: rest => some (.null, rest)
  | 't' :: 'r' :: 'u' :: 'e' :: rest => some (.bool true, rest)
  | 'f' :: 'a' :: 'l' :: 's' :: 'e' :: rest => some (.bool false, rest)
  | '"' :: rest => (readString (rest.length + 1) rest).map fun (cs, rest) => (.text (String.ofList cs), rest)
  | '[' :: rest =>
    match depth with
    | 0 => none
    | d + 1 => (readSequence (readValue d) ']' rest).map fun (items, rest) => (.list items, rest)
  | '\x7b' :: rest =>
    match depth with
    | 0 => none
    | d + 1 =>
      (readSequence (readField (readValue d)) '\x7d' rest).map fun (fields, rest) =>
        (.object fields, rest)
  | s => (readNumber s).map fun (n, rest) => (.number n, rest)

def parse? (s : String) : Option Json := do
  let (value, rest) ← readValue maxDepth s.toList
  if skipSpace rest = [] then some value else none

end FleetHealth.Json
