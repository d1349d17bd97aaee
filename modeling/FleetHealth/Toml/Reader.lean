import FleetHealth.Toml.Document
import FleetHealth.Toml.Scalars
import FleetHealth.Toml.Strings

/-! # Reading documents

A document is a sequence of lines: settings, headers, comments and empty lines. Only
lists and long strings go over the end of a line.
-/
namespace FleetHealth.Toml

open Text

def maxDepth : Nat := 79

def isBareKey (c : Char) : Bool := c.isAlphanum || c = '_' || c = '-'

def readKey : Reader String := fun s =>
  match s.takeWhile isBareKey with
  | [] => (readShortString s).map fun r => (String.ofList r.1, r.2)
  | key => some (String.ofList key, s.dropWhile isBareKey)

def readKeys : Nat → Reader (List String)
  | 0, _ => none
  | fuel + 1, s => do
    let (key, s) ← readKey (skipSpace s)
    match skipSpace s with
    | '.' :: rest => (readKeys fuel rest).map fun r => (key :: r.1, r.2)
    | rest => some ([key], rest)

def readPath : Reader Path := fun s => do
  let (keys, rest) ← readKeys (maxDepth + 1) s
  match keys.getLast? with
  | some key => some (⟨keys.dropLast, key⟩, rest)
  | none => none

def skipComment : List Char → List Char
  | '#' :: rest => rest.dropWhile isPlain
  | s => s

def skipLines : Nat → List Char → List Char
  | 0, s => s
  | fuel + 1, s =>
    let s := skipComment (skipSpace s)
    match newline? s with
    | some rest => skipLines fuel rest
    | none => s

def readSetting (value : Reader Json) : Reader (Path × Json) := fun s => do
  let (path, s) ← readPath s
  let s ← expect '=' s
  let (v, s) ← value (skipSpace s)
  some ((path, v), s)

/-- What follows the opening bracket of a list. A comma may stand before the closing one. -/
def readListItems (value : Reader Json) : Nat → Reader (List Json)
  | 0, _ => none
  | fuel + 1, s =>
    let s := skipLines (s.length + 1) s
    match s with
    | ']' :: rest => some ([], rest)
    | s => do
      let (v, s) ← value s
      match skipLines (s.length + 1) s with
      | ',' :: rest => (readListItems value fuel rest).map fun r => (v :: r.1, r.2)
      | ']' :: rest => some ([v], rest)
      | _ => none

def readInlineItems (value : Reader Json) : Nat → Reader (List (Path × Json))
  | 0, _ => none
  | fuel + 1, s => do
    let (setting, s) ← readSetting value s
    match skipSpace s with
    | ',' :: rest => (readInlineItems value fuel rest).map fun r => (setting :: r.1, r.2)
    | '\x7d' :: rest => some ([setting], rest)
    | _ => none

def readInline (value : Reader Json) : Reader Json := fun s =>
  match skipSpace s with
  | '\x7d' :: rest => some (.object [], rest)
  | s => do
    let (settings, rest) ← readInlineItems value (s.length + 1) s
    let v ← assembleInline settings
    some (v, rest)

def startsNumber (c : Char) : Bool := c = '+' || c = '-' || c = 'i' || c = 'n' || Number.isDigit c

def readValue (depth : Nat) : Reader Json := fun s =>
  match s with
  | [] => none
  | 't' :: 'r' :: 'u' :: 'e' :: rest => some (.bool true, rest)
  | 'f' :: 'a' :: 'l' :: 's' :: 'e' :: rest => some (.bool false, rest)
  | '[' :: rest =>
    match depth with
    | 0 => none
    | d + 1 => (readListItems (readValue d) (rest.length + 1) rest).map fun r => (.list r.1, r.2)
  | '\x7b' :: rest =>
    match depth with
    | 0 => none
    | d + 1 => readInline (readValue d) rest
  | c :: rest =>
    if startsNumber c then readNumber (c :: rest)
    else (readString (c :: rest)).map fun r => (.text (String.ofList r.1), r.2)

def readHeader : Reader Statement
  | '[' :: '[' :: rest => do
    let (path, s) ← readPath rest
    let s ← expect ']' s
    let s ← expect ']' s
    some (.listHeader path, s)
  | '[' :: rest => do
    let (path, s) ← readPath rest
    let s ← expect ']' s
    some (.header path, s)
  | _ => none

def readStatement : Reader Statement
  | '[' :: rest => readHeader ('[' :: rest)
  | s => (readSetting (readValue maxDepth) s).map fun r => (.setting r.1.1 r.1.2, r.2)

/-- The next line, or nothing at the end of the text; blanks and a comment may come first. -/
def endLine (s : List Char) : Option (List Char) :=
  match skipComment (skipSpace s) with
  | [] => some []
  | s => newline? s

def readStatements : Nat → List Char → Option (List Statement)
  | 0, _ => none
  | fuel + 1, s =>
    match skipLines (s.length + 1) s with
    | [] => some []
    | s => do
      let (statement, s) ← readStatement s
      let s ← endLine s
      let more ← readStatements fuel s
      some (statement :: more)

def dropMark : List Char → List Char
  | '\uFEFF' :: rest => rest
  | s => s

def parse? (text : String) : Option Json := do
  let s := dropMark text.toList
  let statements ← readStatements (s.length + 1) s
  assemble statements

end FleetHealth.Toml
