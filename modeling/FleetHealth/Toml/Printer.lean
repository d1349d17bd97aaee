import FleetHealth.Number.Numeral

/-! # Writing documents

A document is written section by section. A text is put in the plainest quotes that
will hold it; escapes are used only where no quotes do without.
-/
namespace FleetHealth.Toml

open Number

inductive Scalar where
  | text (s : String)
  | integer (n : Nat)
  | bool (b : Bool)
  | emptyList
deriving DecidableEq, Repr

structure Section where
  header : Option String
  settings : List (String × Scalar)
deriving DecidableEq, Repr

def needsCode (c : Char) : Bool := (c.toNat < 0x20 && c ≠ '\t' && c ≠ '\n') || c.toNat = 0x7F

/-- The length of the longest run of a character; `run` is that of the current one. -/
def longestRun (quote : Char) : Nat → List Char → Nat
  | run, [] => run
  | run, c :: rest =>
    if c = quote then longestRun quote (run + 1) rest else max run (longestRun quote 0 rest)

def upperHexDigit (n : Nat) : Char :=
  if n < 10 then Char.ofNat ('0'.toNat + n) else Char.ofNat ('A'.toNat + n - 10)

/-- The escape of a character of a string in double quotes, if it must be escaped. Line ends
may stand in long strings, and so may two double quotes in a row. -/
def escape? (long : Bool) (quotes : Nat) (c : Char) : Option (List Char) :=
  if c = '\x08' then some ['\\', 'b']
  else if c = '\t' then some ['\\', 't']
  else if c = '\n' then if long then none else some ['\\', 'n']
  else if c = '\x0c' then some ['\\', 'f']
  else if c = '\r' then some ['\\', 'r']
  else if c = '"' then if long && quotes < 2 then none else some ['\\', '"']
  else if c = '\\' then some ['\\', '\\']
  else if needsCode c then
    some ['\\', 'u', '0', '0', upperHexDigit (c.toNat / 16), upperHexDigit (c.toNat % 16)]
  else none

/-- The content of a string in double quotes; `quotes` counts those just before. -/
def escaped (long : Bool) : Nat → List Char → List Char
  | _, [] => []
  | quotes, c :: rest =>
    match escape? long quotes c with
    | some e => e ++ escaped long 0 rest
    | none => c :: escaped long (if c = '"' then quotes + 1 else 0) rest

def tripled (quote : Char) (s content : List Char) : List Char :=
  let quotes := [quote, quote, quote]
  quotes ++ (if '\n' ∈ s then ['\n'] else []) ++ content ++ quotes

def stringText (s : List Char) : List Char :=
  let coded := s.any needsCode
  let newline := decide ('\n' ∈ s)
  let backslash := decide ('\\' ∈ s)
  let doubles := longestRun '"' 0 s
  let singles := longestRun '\'' 0 s
  if !coded && !backslash && doubles = 0 && !newline then '"' :: (escaped false 0 s ++ ['"'])
  else if !coded && singles = 0 && !newline then '\'' :: (s ++ ['\''])
  else if !coded && !backslash && doubles ≤ 2 then tripled '"' s (escaped true 0 s)
  else if !coded && singles ≤ 2 then tripled '\'' s s
  else if newline then tripled '"' s (escaped true 0 s)
  else '"' :: (escaped false 0 s ++ ['"'])

/-- The text of a value; integers beyond 63 bits have none. -/
def Scalar.text? : Scalar → Option (List Char)
  | .text s => some (stringText s.toList)
  | .integer n => if n < Nat.pow 2 63 then some (decimal n) else none
  | .bool b => some (toString b).toList
  | .emptyList => some ['[', ']']

def settingLine? (s : String × Scalar) : Option (List Char) :=
  s.2.text?.map fun v => s.1.toList ++ " = ".toList ++ v ++ ['\n']

def headerLine (header : Option String) : List Char :=
  match header with
  | some h => h.toList ++ ['\n']
  | none => []

def Section.text? (s : Section) : Option (List Char) :=
  (s.settings.mapM settingLine?).map fun lines => headerLine s.header ++ lines.flatten

def write? (sections : List Section) : Option String :=
  (sections.mapM Section.text?).map fun texts =>
    String.ofList (List.intercalate ['\n'] texts)

end FleetHealth.Toml
