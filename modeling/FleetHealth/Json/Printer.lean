import FleetHealth.Json.Basic
import FleetHealth.Number.Write

/-! # Writing JSON

Two layouts: `compact` without any blanks, and `pretty` with one item a line and
two blanks of indentation a level. Only quotes, backslashes and control characters
are escaped.
-/
namespace FleetHealth.Json

open Number

private def hexDigit (n : Nat) : Char :=
  if n < 10 then Char.ofNat ('0'.toNat + n) else Char.ofNat ('a'.toNat + n - 10)

def escape (c : Char) : List Char :=
  if c = '"' then ['\\', '"']
  else if c = '\\' then ['\\', '\\']
  else if c = '\x08' then ['\\', 'b']
  else if c = '\x0c' then ['\\', 'f']
  else if c = '\n' then ['\\', 'n']
  else if c = '\r' then ['\\', 'r']
  else if c = '\t' then ['\\', 't']
  else if c.toNat < 0x20 then
    ['\\', 'u', '0', '0', hexDigit (c.toNat / 16), hexDigit (c.toNat % 16)]
  else [c]

def quoted (s : List Char) : List Char := '"' :: (s.flatMap escape ++ ['"'])

def numberText : JsonNumber → List Char
  | .natural n => decimal n
  | .negative n => '-' :: decimal n.natAbs
  | .double x => x.json

structure Layout where
  item : Nat → List Char
  close : Nat → List Char
  colon : List Char

def Layout.compact : Layout := ⟨fun _ => [], fun _ => [], [':']⟩

def Layout.pretty : Layout :=
  { item := fun level => '\n' :: List.replicate (2 * (level + 1)) ' '
    close := fun level => '\n' :: List.replicate (2 * level) ' '
    colon := [':', ' '] }

def bracketed (layout : Layout) (level : Nat) (opening closing : Char) :
    List (List Char) → List Char
  | [] => [opening, closing]
  | first :: rest =>
    opening :: (layout.item level ++ first ++ rest.flatMap (fun i => ',' :: (layout.item level ++ i))
      ++ layout.close level ++ [closing])

mutual

def write (layout : Layout) (level : Nat) : Json → List Char
  | .null => "null".toList
  | .bool b => if b then "true".toList else "false".toList
  | .number n => numberText n
  | .text s => quoted s.toList
  | .list items => bracketed layout level '[' ']' (writeItems layout (level + 1) items)
  | .object fields => bracketed layout level '\x7b' '\x7d' (writeFields layout (level + 1) fields)

def writeItems (layout : Layout) (level : Nat) : List Json → List (List Char)
  | [] => []
  | item :: items => write layout level item :: writeItems layout level items

def writeFields (layout : Layout) (level : Nat) : List (String × Json) → List (List Char)
  | [] => []
  | (name, value) :: fields =>
    (quoted name.toList ++ layout.colon ++ write layout level value) :: writeFields layout level fields

end

def compact (j : Json) : String := String.ofList (write .compact 0 j)

def pretty (j : Json) : String := String.ofList (write .pretty 0 j)

end FleetHealth.Json
