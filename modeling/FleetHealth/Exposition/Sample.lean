import FleetHealth.Keyed
import FleetHealth.Number.Literal
import FleetHealth.Text.Blank

/-! # Samples of a metrics page

A metrics page has one sample a line: a name, labels in braces if there are any, and a
value. Comment lines are skipped, and so is every line that cannot be read.
-/
namespace FleetHealth.Exposition

open Text Number

structure Sample where
  name : String
  labels : Keyed String
  value : Binary64
deriving DecidableEq, Repr

/-- How far the reading of a label set has come. Texts being read are held backwards. -/
inductive LabelStage where
  | between
  | name (name : List Char)
  | afterName (name : List Char)
  | value (name value : List Char)
  | escape (name value : List Char)
deriving DecidableEq, Repr

def unescape (c : Char) : Char := if c = 'n' then '\n' else c

/-- Reads `name="value",...}` and returns the labels with the text after the closing
brace. Braces inside of values do not close the set; of two labels with one name the
later stays. -/
def readLabels : LabelStage → Keyed String → List Char → Option (Keyed String × List Char)
  | _, _, [] => none
  | .between, labels, c :: rest =>
    if isBlank c || c = ',' then readLabels .between labels rest
    else if c = '}' then some (labels, rest)
    else if c = '=' then readLabels (.afterName []) labels rest
    else readLabels (.name [c]) labels rest
  | .name name, labels, c :: rest =>
    if c = '=' then readLabels (.afterName name) labels rest
    else readLabels (.name (c :: name)) labels rest
  | .afterName name, labels, c :: rest =>
    if c = '"' then readLabels (.value name []) labels rest else none
  | .value name value, labels, c :: rest =>
    if c = '\\' then readLabels (.escape name value) labels rest
    else if c = '"' then
      readLabels .between
        (labels.insert (String.ofList (trim name.reverse)) (String.ofList value.reverse)) rest
    else readLabels (.value name (c :: value)) labels rest
  | .escape name value, labels, c :: rest =>
    readLabels (.value name (unescape c :: value)) labels rest

def cutSample (line : List Char) : Option (List Char × Keyed String × List Char) :=
  match cutFirst '{' line with
  | some (name, rest) => (readLabels .between .empty rest).map fun r => (name, r.1, r.2)
  | none =>
    let name := line.takeWhile fun c => !isBlank c
    let rest := line.dropWhile fun c => !isBlank c
    if rest = [] then none else some (name, .empty, rest)

/-- Reads a line; what follows the value is skipped. -/
def readSample? (line : List Char) : Option Sample := do
  let (name, labels, rest) ← cutSample line
  let word ← firstWord? rest
  let value ← readDouble? word
  some ⟨String.ofList (trim name), labels, value⟩

def isComment (line : List Char) : Bool := line.head? = some '#'

def lineSample? (line : List Char) : Option Sample :=
  let line := trim line
  if line = [] || isComment line then none else readSample? line

def parse (body : String) : List Sample := (lines body.toList).filterMap lineSample?

end FleetHealth.Exposition
