import FleetHealth.Json.Basic

/-! # Documents being put together

A document is a tree of tables. A table may be extended later or not, depending on how
it came into being, and no key may be set twice. The finished tree is a JSON value.
-/
namespace FleetHealth.Toml

/-- How a table came into being: by a header or braces of its own, on the way to another
table's header, or through a dotted key. -/
inductive Origin where
  | stated
  | implied
  | dotted
deriving DecidableEq, Repr

inductive Node where
  | value (v : Json)
  | table (origin : Origin) (entries : List (String × Node))
  /-- One table for each header in double brackets. -/
  | tables (elements : List (List (String × Node)))
deriving Repr, Inhabited

abbrev Entries := List (String × Node)

def entry? (key : String) : Entries → Option Node
  | [] => none
  | (k, node) :: rest => if k = key then some node else entry? key rest

def setEntry (key : String) (node : Node) : Entries → Entries
  | [] => [(key, node)]
  | (k, old) :: rest => if k = key then (key, node) :: rest else (k, old) :: setEntry key node rest

abbrev Change := Origin → Entries → Option Entries

/-- Applies a change to the table at the end of a path and makes the tables that are
missing on the way. Dotted keys do not lead into tables that were stated. -/
def changeAt (dotted : Bool) (change : Change) : List String → Change
  | [], origin, entries => change origin entries
  | key :: path, _, entries =>
    match entry? key entries with
    | none =>
      let origin := if dotted then Origin.dotted else .implied
      (changeAt dotted change path origin []).map fun inner =>
        setEntry key (.table origin inner) entries
    | some (.value _) => none
    | some (.table origin inner) =>
      if dotted ∧ origin = .stated then none
      else (changeAt dotted change path origin inner).map fun inner =>
        setEntry key (.table origin inner) entries
    | some (.tables elements) =>
      match elements.getLast? with
      | none => none
      | some last => (changeAt dotted change path .stated last).map fun last =>
          setEntry key (.tables (elements.dropLast ++ [last])) entries

/-- Sets a key that is not set yet. A table made by dotted keys is extended by dotted keys
only, and no other table is. -/
def putValue (path : List String) (key : String) (v : Json) : Change :=
  changeAt true (fun origin entries =>
    if (origin = .dotted) ↔ path = [] then none
    else match entry? key entries with
      | none => some (setEntry key (.value v) entries)
      | some _ => none) path

def putTable (path : List String) (key : String) : Change :=
  changeAt false (fun _ entries =>
    match entry? key entries with
    | none => some (setEntry key (.table .stated []) entries)
    | some (.table .implied inner) => some (setEntry key (.table .stated inner) entries)
    | some _ => none) path

def pushTable (path : List String) (key : String) : Change :=
  changeAt false (fun _ entries =>
    match entry? key entries with
    | none => some (setEntry key (.tables [[]]) entries)
    | some (.tables elements) => some (setEntry key (.tables (elements ++ [[]])) entries)
    | some _ => none) path

mutual

def Node.toJson : Node → Json
  | .value v => v
  | .table _ entries => .object (entriesJson entries)
  | .tables elements => .list (elementsJson elements)

def entriesJson : Entries → List (String × Json)
  | [] => []
  | (key, node) :: rest => (key, node.toJson) :: entriesJson rest

def elementsJson : List Entries → List Json
  | [] => []
  | element :: rest => .object (entriesJson element) :: elementsJson rest

end

structure Path where
  tables : List String
  key : String
deriving DecidableEq, Repr

def Path.all (p : Path) : List String := p.tables ++ [p.key]

/-- One line of a document, or several where its value is long. -/
inductive Statement where
  | setting (path : Path) (v : Json)
  | header (path : Path)
  | listHeader (path : Path)
deriving Repr

structure Progress where
  entries : Entries
  current : List String
deriving Repr

def Progress.step (p : Progress) : Statement → Option Progress
  | .setting path v =>
    (changeAt false (putValue path.tables path.key v) p.current .stated p.entries).map fun entries =>
      { p with entries := entries }
  | .header path =>
    (putTable path.tables path.key .stated p.entries).map fun entries => ⟨entries, path.all⟩
  | .listHeader path =>
    (pushTable path.tables path.key .stated p.entries).map fun entries => ⟨entries, path.all⟩

def assemble (statements : List Statement) : Option Json :=
  (statements.foldlM Progress.step ⟨[], []⟩).map fun p => .object (entriesJson p.entries)

def assembleInline (settings : List (Path × Json)) : Option Json :=
  (settings.foldlM (fun entries s => putValue s.1.tables s.1.key s.2 .stated entries) []).map
    fun entries => .object (entriesJson entries)

end FleetHealth.Toml
