import FleetHealth.Number.Binary64

/-! # JSON values

Numbers keep apart what decoding keeps apart: integers that fit 64 bits, signed or
not, and doubles. An object is the list of its fields as they were written, so a
field may occur twice; `canonical` keeps the last of each and sorts by name.
-/
namespace FleetHealth

open Number

/-- A number: `natural` is at most `counterMax`, `negative` is below zero and at
least `-2 ^ 63`, and every other number is a double. -/
inductive JsonNumber where
  | natural (n : Nat)
  | negative (n : Int)
  | double (x : Binary64)
deriving DecidableEq, Repr

inductive Json where
  | null
  | bool (b : Bool)
  | number (n : JsonNumber)
  | text (s : String)
  | list (items : List Json)
  | object (fields : List (String × Json))
deriving Repr, Inhabited

namespace Json

def nat (n : Nat) : Json := .number (.natural n)

def double (x : Binary64) : Json := .number (.double x)

def int : Int → Json
  | .ofNat n => .number (.natural n)
  | .negSucc n => .number (.negative (.negSucc n))

def option {α : Type} (f : α → Json) : Option α → Json
  | none => .null
  | some a => f a

def texts (items : List String) : Json := .list (items.map .text)

/-- The value of the last field with that name. -/
def field? (name : String) : Json → Option Json
  | .object fields => fields.reverse.lookup name
  | _ => none

/-- Adds a field in order of names; a field of the same name gives way. -/
def insertField (name : String) (value : Json) : List (String × Json) → List (String × Json)
  | [] => [(name, value)]
  | (n, v) :: rest =>
    if name < n then (name, value) :: (n, v) :: rest
    else if name = n then (name, value) :: rest
    else (n, v) :: insertField name value rest

mutual

/-- The same value with each object's fields in order of names, the last of each name kept. -/
def canonical : Json → Json
  | .list items => .list (canonicalItems items)
  | .object fields => .object (canonicalFields [] fields)
  | value => value

def canonicalItems : List Json → List Json
  | [] => []
  | item :: items => item.canonical :: canonicalItems items

def canonicalFields (done : List (String × Json)) : List (String × Json) → List (String × Json)
  | [] => done
  | (name, value) :: fields => canonicalFields (insertField name value.canonical done) fields

end

end Json

end FleetHealth
