import FleetHealth.Net.Ip

/-! # Percent encoding

Characters that may not stand for themselves in a URL path are written as the
percent escapes of their UTF-8 bytes. Decoding works on bytes and leaves a percent
sign alone that no two hexadecimal digits follow.
-/
namespace FleetHealth.Net

def bytesOf (c : Char) : List UInt8 := (String.singleton c).toUTF8.toList

def upperHex (n : Nat) : Char :=
  if n < 10 then Char.ofNat ('0'.toNat + n) else Char.ofNat ('A'.toNat + n - 10)

def escapeByte (b : UInt8) : List Char := ['%', upperHex (b.toNat / 16), upperHex (b.toNat % 16)]

def isControlOrForeign (c : Char) : Bool := c.toNat < 0x20 || 0x7F ≤ c.toNat

def escapedInPath (c : Char) : Bool :=
  isControlOrForeign c || c ∈ [' ', '"', '<', '>', '`', '#', '?', '\x7b', '\x7d']

def encodePath (s : List Char) : List Char :=
  s.flatMap fun c => if escapedInPath c then (bytesOf c).flatMap escapeByte else [c]

/-- The ASCII text with its escapes resolved, or `none` when a byte beyond ASCII comes out. -/
def decodeAscii? : List Char → Option (List Char)
  | '%' :: a :: b :: rest =>
    match hexDigit? a, hexDigit? b with
    | some high, some low =>
      if high < 8 then (decodeAscii? rest).map (Char.ofNat (16 * high + low) :: ·) else none
    | _, _ => (decodeAscii? (a :: b :: rest)).map ('%' :: ·)
  | c :: rest => if c.toNat < 0x80 then (decodeAscii? rest).map (c :: ·) else none
  | [] => some []

end FleetHealth.Net
