import FleetHealth.Proofs.Net.AddressShape

/-! # Whole URLs

A URL has credentials and a query beside its scheme, host, port and path. They are read here
together with the rest, which is what an address is made of.
-/
namespace FleetHealth.Net

open Text

/-! ## Credentials and queries -/

def escapedInCredentials (c : Char) : Bool :=
  escapedInPath c || c ∈ ['/', ':', ';', '=', '@', '[', '\\', ']', '^', '|']

def escapedInQuery (c : Char) : Bool :=
  isControlOrForeign c || c ∈ [' ', '"', '#', '<', '>', '\'']

def encodeWhere (escaped : Char → Bool) (s : List Char) : List Char :=
  s.flatMap fun c => if escaped c then (bytesOf c).flatMap escapeByte else [c]

def credentialsOf (authority : List Char) : List Char × List Char :=
  match cutLast '@' authority with
  | none => ([], [])
  | some (credentials, _) =>
    let (name, password) := (cutFirst ':' credentials).getD (credentials, [])
    (encodeWhere escapedInCredentials name, encodeWhere escapedInCredentials password)

def queryOf (tail : List Char) : Option (List Char) :=
  match tail.dropWhile fun c => c ≠ '?' && c ≠ '#' with
  | '?' :: rest => some (encodeWhere escapedInQuery (rest.takeWhile (· ≠ '#')))
  | _ => none

/-- All of a special URL except its fragment. -/
structure WholeUrl where
  url : Url
  name : List Char
  password : List Char
  query : Option (List Char)
deriving DecidableEq, Repr

def readWholeUrl (names : HostNames) (s : List Char) : Except UrlError WholeUrl := do
  let url ← readUrl names s
  let (authority, tail) := cutAuthority (((cutScheme (stripUrl s)).map (·.2)).getD [])
  let (name, password) := credentialsOf authority
  return { url, name, password, query := queryOf tail }

namespace WholeUrl

def Plain (u : WholeUrl) : Prop := u.name = [] ∧ u.password = [] ∧ u.query = none

/-- The same scheme, host and port, and the same path up to slashes at its end. -/
def SamePlace (u v : WholeUrl) : Prop :=
  u.url.scheme = v.url.scheme ∧ u.url.host = v.url.host ∧ u.url.port = v.url.port ∧
    trimPath u.url.path = trimPath v.url.path

/-- The same URL up to slashes at the end of the path, and up to the fragment. -/
def Same (u v : WholeUrl) : Prop :=
  u.SamePlace v ∧ u.name = v.name ∧ u.password = v.password ∧ u.query = v.query

theorem same_iff_plain {u v : WholeUrl} (h : u.SamePlace v) (hu : u.Plain) : u.Same v ↔ v.Plain := by
  obtain ⟨hname, hpassword, hquery⟩ := hu
  rw [Same, hname, hpassword, hquery, Plain]
  constructor
  · rintro ⟨-, h⟩
    exact ⟨h.1.symm, h.2.1.symm, h.2.2.symm⟩
  · intro hv
    exact ⟨h, hv.1.symm, hv.2.1.symm, hv.2.2.symm⟩

end WholeUrl

end FleetHealth.Net
