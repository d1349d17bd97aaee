import FleetHealth.Number.Shortest

/-! # Written forms of doubles

Messages write a double positionally and never with an exponent. JSON writes a
decimal point always and takes an exponent outside `1e-5 ≤ x < 1e16`. Both use the
shortest digits that read back.
-/
namespace FleetHealth.Number

private def zeros (n : Nat) : List Char := List.replicate n '0'

def positionalDigits (ds : List Char) (e : Int) : List Char :=
  let point : Int := ds.length + e
  if 0 ≤ e then ds ++ zeros e.toNat
  else if 0 < point then ds.take point.toNat ++ '.' :: ds.drop point.toNat
  else '0' :: '.' :: (zeros (-point).toNat ++ ds)

def jsonDigits (ds : List Char) (e : Int) : List Char :=
  let point : Int := ds.length + e
  if -5 < point ∧ point ≤ 16 then
    if 0 ≤ e then positionalDigits ds e ++ ['.', '0'] else positionalDigits ds e
  else
    let exponent := 'e' :: (toString (point - 1)).toList
    match ds with
    | [d] => d :: exponent
    | d :: rest => d :: '.' :: (rest ++ exponent)
    | [] => exponent

private def signed (negative : Bool) (s : List Char) : List Char :=
  if negative then '-' :: s else s

namespace Binary64

def text (x : Binary64) : List Char :=
  match x.view with
  | .nan => "NaN".toList
  | .infinite negative => signed negative "inf".toList
  | .finite negative m q narrow =>
    if m = 0 then signed negative ['0']
    else
      let (d, e) := shortest m q narrow
      signed negative (positionalDigits (decimal d) e)

/-- The form used in JSON, where a number that is not finite becomes `null`. -/
def json (x : Binary64) : List Char :=
  match x.view with
  | .nan | .infinite _ => "null".toList
  | .finite negative m q narrow =>
    if m = 0 then signed negative "0.0".toList
    else
      let (d, e) := shortest m q narrow
      signed negative (jsonDigits (decimal d) e)

end Binary64

end FleetHealth.Number
