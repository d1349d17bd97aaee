import FleetHealth.Text.Blank
import FleetHealth.Number.Numeral

/-! # IP addresses

Literals of both families and their canonical texts. An IPv4 literal has four
decimal parts without leading zeros. An IPv6 literal has eight groups of up to four
hexadecimal digits; one run of zero groups may be left out as `::`, and the last two
groups may be written as an IPv4 literal.
-/
namespace FleetHealth.Net

open Text Number

inductive IpAddress where
  | v4 (a b c d : Nat)
  | v6 (groups : List Nat)
deriving DecidableEq, Repr

/-! ## Literals -/

def readOctet? (s : List Char) : Option Nat :=
  match s with
  | ['0'] => some 0
  | '0' :: _ => none
  | _ => if s.length ≤ 3 then (readDigits? s).filter (· ≤ 255) else none

def readOctets? (s : List Char) : Option (Nat × Nat × Nat × Nat) :=
  match splitAt '.' s with
  | [a, b, c, d] => do
    let a ← readOctet? a
    let b ← readOctet? b
    let c ← readOctet? c
    let d ← readOctet? d
    some (a, b, c, d)
  | _ => none

def hexDigit? (c : Char) : Option Nat :=
  if isDigit c then some (digitValue c)
  else if 'a' ≤ c.toLower ∧ c.toLower ≤ 'f' then some (c.toLower.toNat - 'a'.toNat + 10)
  else none

def hexNat? (s : List Char) : Option Nat :=
  s.foldlM (fun n c => (hexDigit? c).map (16 * n + ·)) 0

def readGroup? (s : List Char) : Option Nat :=
  if s = [] ∨ 4 < s.length then none else hexNat? s

/-- The groups that end a literal: the last piece may be an IPv4 literal. -/
def lastGroups? (s : List Char) : Option (List Nat) :=
  match readOctets? s with
  | some (a, b, c, d) => some [256 * a + b, 256 * c + d]
  | none => (readGroup? s).map ([·])

def readGroups? : List (List Char) → Option (List Nat)
  | [] => some []
  | [last] => lastGroups? last
  | piece :: pieces => do
    let g ← readGroup? piece
    let gs ← readGroups? pieces
    some (g :: gs)

def cutDouble : List Char → Option (List Char × List Char)
  | ':' :: ':' :: rest => some ([], rest)
  | c :: rest => (cutDouble rest).map fun cut => (c :: cut.1, cut.2)
  | [] => none

def groupsOf (read : List (List Char) → Option (List Nat)) (s : List Char) : Option (List Nat) :=
  if s = [] then some [] else read (splitAt ':' s)

/-- The eight groups of an IPv6 literal. A left-out run stands for one group at least. -/
def readV6Groups? (s : List Char) : Option (List Nat) :=
  match cutDouble s with
  | none => (readGroups? (splitAt ':' s)).filter (·.length = 8)
  | some (front, back) => do
    let front ← groupsOf (·.mapM readGroup?) front
    let back ← groupsOf readGroups? back
    if front.length + back.length ≤ 7 then
      some (front ++ List.replicate (8 - front.length - back.length) 0 ++ back)
    else none

def readV4? (s : List Char) : Option IpAddress :=
  (readOctets? s).map fun (a, b, c, d) => .v4 a b c d

def readV6? (s : List Char) : Option IpAddress :=
  (readV6Groups? s).map .v6

def readIp? (s : List Char) : Option IpAddress :=
  match readV4? s with
  | some ip => some ip
  | none => readV6? s

/-! ## Texts -/

def octetsText (a b c d : Nat) : List Char :=
  decimal a ++ '.' :: (decimal b ++ '.' :: (decimal c ++ '.' :: decimal d))

def hexText (n : Nat) : List Char := Nat.toDigits 16 n

def colonSeparated (groups : List Nat) : List Char :=
  List.intercalate [':'] (groups.map hexText)

def zeroRun (groups : List Nat) : Nat := (groups.takeWhile (· = 0)).length

/-- Start and length of the longest run of zero groups, the first of the longest ones. -/
def longestZeroRun (groups : List Nat) : Nat × Nat :=
  (List.range groups.length).foldl
    (fun best i => if best.2 < zeroRun (groups.drop i) then (i, zeroRun (groups.drop i)) else best)
    (0, 0)

/-- The groups with the longest run of at least two zeros left out. -/
def groupsText (groups : List Nat) : List Char :=
  let (start, length) := longestZeroRun groups
  if 1 < length then
    colonSeparated (groups.take start) ++ ':' :: ':' :: colonSeparated (groups.drop (start + length))
  else colonSeparated groups

namespace IpAddress

/-- The canonical text; an IPv4 address mapped into IPv6 keeps its decimal parts. -/
def text : IpAddress → List Char
  | .v4 a b c d => octetsText a b c d
  | .v6 [0, 0, 0, 0, 0, 0xFFFF, x, y] =>
    "::ffff:".toList ++ octetsText (x / 256) (x % 256) (y / 256) (y % 256)
  | .v6 groups => groupsText groups

def isV6 : IpAddress → Bool
  | .v4 .. => false
  | .v6 _ => true

instance : ToString IpAddress where
  toString ip := String.ofList ip.text

end IpAddress

end FleetHealth.Net
