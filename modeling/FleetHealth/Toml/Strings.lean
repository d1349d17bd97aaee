import FleetHealth.Text.Reader

/-! # Strings of a document

There are four kinds: in double quotes with escapes, in single quotes without, and
each of them also over several lines in triple quotes.
-/
namespace FleetHealth.Toml

open Text

def isSpace (c : Char) : Bool := c = ' ' || c = '\t'

def skipSpace (s : List Char) : List Char := s.dropWhile isSpace

def newline? : List Char → Option (List Char)
  | '\n' :: rest => some rest
  | '\r' :: '\n' :: rest => some rest
  | _ => none

def isPlain (c : Char) : Bool := c = '\t' || (0x20 ≤ c.toNat && c.toNat ≠ 0x7F)

def scalar? (n : Nat) : Option Char :=
  if n < 0xD800 ∨ (0xE000 ≤ n ∧ n < 0x110000) then some (Char.ofNat n) else none

def readScalar (digits : Nat) : Reader Char := fun s => do
  let taken := s.take digits
  if taken.length < digits then none
  else
    let n ← hexDigits? taken
    let c ← scalar? n
    some (c, s.drop digits)

def readEscape : Reader Char
  | 'b' :: rest => some ('\x08', rest)
  | 't' :: rest => some ('\t', rest)
  | 'n' :: rest => some ('\n', rest)
  | 'f' :: rest => some ('\x0c', rest)
  | 'r' :: rest => some ('\r', rest)
  | '"' :: rest => some ('"', rest)
  | '\\' :: rest => some ('\\', rest)
  | 'u' :: rest => readScalar 4 rest
  | 'U' :: rest => readScalar 8 rest
  | _ => none

def readBasic : Nat → Reader (List Char)
  | 0, _ => none
  | fuel + 1, s =>
    match s with
    | [] => none
    | '"' :: rest => some ([], rest)
    | '\\' :: rest => do
      let (c, rest) ← readEscape rest
      let (cs, rest) ← readBasic fuel rest
      some (c :: cs, rest)
    | c :: rest =>
      if isPlain c then (readBasic fuel rest).map fun r => (c :: r.1, r.2) else none

def readLiteral (s : List Char) : Option (List Char × List Char) :=
  let content := s.takeWhile fun c => c ≠ '\'' && isPlain c
  match s.dropWhile fun c => c ≠ '\'' && isPlain c with
  | '\'' :: rest => some (content, rest)
  | _ => none

/-- After a triple of quotes, up to two quotes more belong to the string. -/
def trailingQuotes (quote : Char) (s : List Char) : List Char × List Char :=
  let extra := (s.take 2).takeWhile (· = quote)
  (extra, s.drop extra.length)

/-- Blanks and line ends, at least one line end among them. -/
def skipBreak? (s : List Char) : Option (List Char) :=
  (newline? (skipSpace s)).map go
where
  /-- Blanks and line ends from here on. -/
  go : List Char → List Char
    | '\r' :: '\n' :: rest => go rest
    | c :: rest => if isSpace c || c = '\n' then go rest else c :: rest
    | [] => []

/-- The rest of a string in triple double quotes. A backslash at the end of a line joins it
to the next text. -/
def readLongBasic : Nat → Reader (List Char)
  | 0, _ => none
  | fuel + 1, s =>
    let continued (c : Char) (rest : List Char) :=
      (readLongBasic fuel rest).map fun r => (c :: r.1, r.2)
    match s with
    | [] => none
    | '"' :: '"' :: '"' :: rest => some (trailingQuotes '"' rest)
    | '\\' :: rest =>
      match skipBreak? rest with
      | some rest => readLongBasic fuel rest
      | none => do
        let (c, rest) ← readEscape rest
        continued c rest
    | '\r' :: '\n' :: rest => continued '\n' rest
    | c :: rest => if isPlain c || c = '\n' then continued c rest else none

def readLongLiteral : List Char → Option (List Char × List Char)
  | [] => none
  | '\'' :: '\'' :: '\'' :: rest => some (trailingQuotes '\'' rest)
  | '\r' :: '\n' :: rest => (readLongLiteral rest).map fun r => ('\n' :: r.1, r.2)
  | c :: rest =>
    if isPlain c || c = '\n' then (readLongLiteral rest).map fun r => (c :: r.1, r.2) else none

/-- A line end right after the opening quotes does not count. -/
def dropFirstBreak (s : List Char) : List Char := (newline? s).getD s

def readShortString : Reader (List Char)
  | '"' :: rest => readBasic (rest.length + 1) rest
  | '\'' :: rest => readLiteral rest
  | _ => none

def readString : Reader (List Char)
  | '"' :: '"' :: '"' :: rest => readLongBasic (rest.length + 1) (dropFirstBreak rest)
  | '\'' :: '\'' :: '\'' :: rest => readLongLiteral (dropFirstBreak rest)
  | s => readShortString s

end FleetHealth.Toml
