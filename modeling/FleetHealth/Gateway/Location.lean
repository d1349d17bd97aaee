import FleetHealth.Json.Basic

/-! # Locations of hosts -/
namespace FleetHealth.Gateway

structure Location where
  /-- Two letters: `DE`. -/
  countryCode : String
  countryName : String
  /-- The flag as a pair of regional indicators. -/
  flag : String
  organization : String
deriving DecidableEq, Repr

def Location.toJson (l : Location) : Json :=
  .object [("country_code", .text l.countryCode), ("country_name", .text l.countryName),
    ("flag", .text l.flag), ("organization", .text l.organization)]

def regionalIndicator (c : Char) : Char := Char.ofNat (0x1F1E6 + (c.toUpper.toNat - 'A'.toNat))

/-- The flag of a country code of two letters; empty for every other text. -/
def flagGlyph (code : String) : String :=
  match code.toList with
  | [a, b] =>
    if a.isAlpha && b.isAlpha then String.ofList [regionalIndicator a, regionalIndicator b] else ""
  | _ => ""

end FleetHealth.Gateway
