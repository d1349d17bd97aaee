import FleetHealth.Json.Basic

/-! # Decoding JSON into records

A record is read from an object, in which fields it does not know are skipped and
none it knows may occur twice, or from a list of its fields in declaration order.
Nothing is converted: a text is no number and a double is no integer, but every
number is a double. `null` stands only for an absent optional value.
-/
namespace FleetHealth.Json

open Number

inductive Mismatch where
  | expected (what : String)
  | missing (field : String)
  | repeated (field : String)
  | tooManyItems
deriving DecidableEq, Repr

def Mismatch.message : Mismatch → String
  | .expected what => "expected " ++ what
  | .missing field => "missing field " ++ field
  | .repeated field => "repeated field " ++ field
  | .tooManyItems => "too many items"

abbrev Decoder (α : Type) := Json → Except Mismatch α

def asText : Decoder String
  | .text s => .ok s
  | _ => .error (.expected "a text")

def asBool : Decoder Bool
  | .bool b => .ok b
  | _ => .error (.expected "a truth value")

def asNat (bound : Nat) : Decoder Nat
  | .number (.natural n) => if n ≤ bound then .ok n else .error (.expected "a smaller number")
  | _ => .error (.expected "a natural number")

def asInt : Decoder Int
  | .number (.natural n) => if n < Nat.pow 2 63 then .ok n else .error (.expected "a smaller number")
  | .number (.negative n) => .ok n
  | _ => .error (.expected "an integer")

def asDouble : Decoder Binary64
  | .number (.natural n) => .ok (.ofNat n)
  | .number (.negative n) => .ok (.ofInt n)
  | .number (.double x) => .ok x
  | _ => .error (.expected "a number")

def asOption {α : Type} (decode : Decoder α) : Decoder (Option α)
  | .null => .ok none
  | value => (decode value).map some

def asList {α : Type} (decode : Decoder α) : Decoder (List α)
  | .list items => items.mapM decode
  | _ => .error (.expected "a list")

def asPair {α β : Type} (first : Decoder α) (second : Decoder β) : Decoder (α × β)
  | .list [a, b] => do
    let a ← first a
    let b ← second b
    .ok (a, b)
  | _ => .error (.expected "a list of two items")

abbrev Slots := List (String × Json)

/-- The fields with known names, refused when one comes twice. -/
def knownFields (names : List String) : List (String × Json) → Slots → Except Mismatch Slots
  | [], done => .ok done
  | (name, value) :: rest, done =>
    if name ∉ names then knownFields names rest done
    else if done.any (·.1 = name) then .error (.repeated name)
    else knownFields names rest (done ++ [(name, value)])

def slots (names : List String) : Decoder Slots
  | .object fields => knownFields names fields []
  | .list items =>
    if names.length < items.length then .error .tooManyItems else .ok (names.zip items)
  | _ => .error (.expected "a record")

namespace Slots

def get? (s : Slots) (name : String) : Option Json := s.lookup name

def required {α : Type} (s : Slots) (name : String) (decode : Decoder α) : Except Mismatch α :=
  match s.get? name with
  | some value => decode value
  | none => .error (.missing name)

def withDefault {α : Type} (s : Slots) (name : String) (default : α) (decode : Decoder α) :
    Except Mismatch α :=
  match s.get? name with
  | some value => decode value
  | none => .ok default

/-- An optional field: absent and `null` are the same. -/
def optional {α : Type} (s : Slots) (name : String) (decode : Decoder α) :
    Except Mismatch (Option α) :=
  s.withDefault name none (asOption decode)

end Slots

end FleetHealth.Json
