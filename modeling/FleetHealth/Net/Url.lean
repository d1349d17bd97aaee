import FleetHealth.Net.Percent

/-! # URLs

The part of the WHATWG rules for absolute URLs that an endpoint needs: scheme, host,
port and path. Credentials, query and fragment are recognised and left out. The
special schemes share one syntax, in which a backslash is a slash and the host is a
domain or an IP address; other schemes have an opaque host or none. How the name of a
domain is turned into ASCII is left open: URLs are read with any such names.
-/
namespace FleetHealth.Net

open Text Number

inductive UrlError where
  | emptyHost
  | invalidDomain
  | invalidDomainCharacter
  | invalidPort
  | invalidIpv4
  | invalidIpv6
  | noScheme
deriving DecidableEq, Repr

def UrlError.message : UrlError → String
  | .emptyHost => "empty host"
  | .invalidDomain => "invalid international domain name"
  | .invalidDomainCharacter => "invalid domain character"
  | .invalidPort => "invalid port number"
  | .invalidIpv4 => "invalid IPv4 address"
  | .invalidIpv6 => "invalid IPv6 address"
  | .noScheme => "relative URL without a base"

inductive SchemeClass where
  | special
  | file
  | opaqueHost
deriving DecidableEq, Repr

def schemeClass (scheme : String) : SchemeClass :=
  if scheme = "file" then .file
  else if scheme ∈ ["http", "https", "ws", "wss", "ftp"] then .special
  else .opaqueHost

def defaultPort? (scheme : String) : Option Nat :=
  if scheme = "http" ∨ scheme = "ws" then some 80
  else if scheme = "https" ∨ scheme = "wss" then some 443
  else if scheme = "ftp" then some 21
  else none

/-- A URL as far as an endpoint is concerned. An IPv6 host stands without brackets. -/
structure Url where
  scheme : String
  host : String
  port : Option Nat
  path : String
deriving DecidableEq, Repr

/-! ## Hosts -/

def forbiddenInHost (c : Char) : Bool :=
  c ∈ ['\x00', '\t', '\n', '\r', ' ', '#', '/', ':', '<', '>', '?', '@', '[', '\\', ']', '^', '|']

def forbiddenInDomain (c : Char) : Bool :=
  forbiddenInHost c || c.toNat < 0x20 || c = '%' || c.toNat = 0x7F

/-- A number of an IPv4 host, which is hexadecimal after `0x`, octal after `0` and else
decimal. A bare `0x` is zero. -/
def hostNumber? (s : List Char) : Option Nat :=
  match s with
  | [] => none
  | '0' :: 'x' :: ds => hexNat? ds
  | ['0'] => some 0
  | '0' :: ds => if ds.all (fun c => '0' ≤ c && c ≤ '7') then
      some (ds.foldl (fun n c => 8 * n + digitValue c) 0) else none
  | ds => readDigits? ds

def hostParts (domain : List Char) : List (List Char) :=
  let parts := splitAt '.' domain
  if parts.getLast? = some [] then parts.dropLast else parts

def endsInNumber (domain : List Char) : Bool :=
  match (hostParts domain).getLast? with
  | some part => (part ≠ [] && part.all isDigit) || (hostNumber? part).isSome
  | none => false

/-- The address written by up to four numbers, the last of which fills what is left. -/
def hostIpv4? (domain : List Char) : Option (Nat × Nat × Nat × Nat) := do
  let numbers ← (hostParts domain).mapM hostNumber?
  let last ← numbers.getLast?
  let front := numbers.dropLast
  if 3 < front.length ∨ front.any (255 < ·) ∨ Nat.pow 256 (4 - front.length) ≤ last then none
  else
    let lead := (List.range front.length).foldl
      (fun n i => n + (front[i]?.getD 0) * Nat.pow 256 (3 - i)) 0
    let n := lead + last
    some (n / Nat.pow 256 3, n / Nat.pow 256 2 % 256, n / 256 % 256, n % 256)

def bracketedHost (s : List Char) : Except UrlError String :=
  match (if s.getLast? = some ']' then readV6Groups? s.dropLast else none) with
  | some groups => .ok (String.ofList (groupsText groups))
  | none => .error .invalidIpv6

/-- The ASCII form of a domain in lower case, its escapes resolved, if it has one. -/
abbrev HostNames := List Char → Option (List Char)

/-- The domains that are ASCII once their escapes are resolved, and no others. -/
def asciiNames : HostNames := fun s => (decodeAscii? s).map lower

variable (names : HostNames)

def specialHost : List Char → Except UrlError String
  | '[' :: rest => bracketedHost rest
  | s =>
    match names s with
    | none => .error .invalidDomain
    | some domain =>
      if domain.any forbiddenInDomain then .error .invalidDomain
      else if domain = [] then .error .emptyHost
      else if endsInNumber domain then
        match hostIpv4? domain with
        | some (a, b, c, d) => .ok (String.ofList (octetsText a b c d))
        | none => .error .invalidIpv4
      else .ok (String.ofList domain)

def opaqueHost : List Char → Except UrlError String
  | '[' :: rest => bracketedHost rest
  | s => if s.any forbiddenInHost then .error .invalidDomainCharacter else .ok (String.ofList s)

/-! ## Authority -/

def endsAuthority (c : SchemeClass) (x : Char) : Bool :=
  x = '/' || x = '?' || x = '#' || (x = '\\' && c != .opaqueHost)

/-- The host text and what follows it: a colon ends it outside of brackets. -/
def cutHost : Bool → List Char → List Char × List Char
  | _, [] => ([], [])
  | inBrackets, c :: rest =>
    if c = ':' ∧ !inBrackets then ([], c :: rest)
    else
      let (host, tail) := cutHost (if c = '[' then true else if c = ']' then false else inBrackets) rest
      (c :: host, tail)

/-- The port after the colon, up to a backslash. No digits are no port; digits and nothing
else are one. -/
def readUrlPort (s : List Char) : Except UrlError (Option Nat) :=
  match s.takeWhile (· ≠ '\\') with
  | [] => .ok none
  | digits =>
    match (readDigits? digits).filter (· ≤ portMax) with
    | some port => .ok (some port)
    | none => .error .invalidPort

def hostAndPort (c : SchemeClass) (credentials : Bool) (s : List Char) :
    Except UrlError (String × Option Nat) := do
  let (hostText, tail) := cutHost false s
  if c = .special ∧ hostText = [] then throw .emptyHost
  let host ← if c = .opaqueHost then opaqueHost hostText else specialHost names hostText
  if host = "" ∧ tail ≠ [] then throw .emptyHost
  let port ← match tail with
    | ':' :: digits => readUrlPort digits
    | _ => .ok none
  if host = "" ∧ credentials then throw .emptyHost
  return (host, port)

/-- Host and port of a whole authority. Credentials end at the last at sign; if they are
empty there must be a host. -/
def readAuthority (c : SchemeClass) (authority : List Char) (more : Bool) :
    Except UrlError (String × Option Nat) :=
  match cutLast '@' authority with
  | none => hostAndPort names c false authority
  | some ([], rest) => if rest = [] ∧ more then .error .emptyHost else hostAndPort names c false rest
  | some (credentials, rest) => hostAndPort names c (credentials ≠ [':']) rest

/-! ## Paths -/

def isDriveLetter : List Char → Bool
  | [letter, mark] => letter.isAlpha && (mark = ':' || mark = '|')
  | _ => false

def isSingleDot (segment : List Char) : Bool :=
  lower segment = ['.'] || lower segment = ['%', '2', 'e']

def isDoubleDot (segment : List Char) : Bool :=
  let s := lower segment
  s = "..".toList || s = ".%2e".toList || s = "%2e.".toList || s = "%2e%2e".toList

def dropSegment : List (List Char) → List (List Char)
  | [] => []
  | last :: before => if isDriveLetter last then last :: before else before

/-- Resolves dot segments. The last segment has no slash after it, so a dot in its place
leaves an empty one. -/
def resolveSegments : List (List Char) → List (List Char) → List (List Char)
  | done, [] => done.reverse
  | done, [last] =>
    if isDoubleDot last then ([] :: dropSegment done).reverse
    else if isSingleDot last then ([] :: done).reverse
    else (last :: done).reverse
  | done, segment :: segments =>
    if isDoubleDot segment then resolveSegments (dropSegment done) segments
    else if isSingleDot segment then resolveSegments done segments
    else resolveSegments (segment :: done) segments

def specialPath (s : List Char) : List Char :=
  let upToQuery := s.takeWhile fun c => c ≠ '?' && c ≠ '#'
  let slashed := upToQuery.map fun c => if c = '\\' then '/' else c
  let body := match slashed with
    | '/' :: rest => rest
    | rest => rest
  '/' :: List.intercalate ['/'] (resolveSegments [] ((splitAt '/' body).map encodePath))

/-! ## Whole URLs -/

def cutScheme : List Char → Option (List Char × List Char)
  | [] => none
  | first :: rest =>
    if !first.isAlpha then none
    else match cutFirst ':' rest with
      | some (more, tail) =>
        if more.all (fun c => c.isAlphanum || c = '+' || c = '-' || c = '.') then
          some (lower (first :: more), tail)
        else none
      | none => none

def isSlash (c : Char) : Bool := c = '/' || c = '\\'

def cutAuthority (s : List Char) : List Char × List Char :=
  let body := s.dropWhile isSlash
  (body.takeWhile fun c => !endsAuthority .special c, body.dropWhile fun c => !endsAuthority .special c)

def readSpecial (scheme : String) (s : List Char) : Except UrlError Url := do
  let (authority, tail) := cutAuthority s
  let (host, port) ← readAuthority names .special authority (tail ≠ [])
  let port := match port with
    | some p => some p
    | none => defaultPort? scheme
  return { scheme, host, port, path := String.ofList (specialPath tail) }

/-- A file URL may name a host after two slashes, unless it is a drive letter. -/
def readFile (s : List Char) : Except UrlError Unit :=
  match s with
  | a :: b :: rest =>
    if isSlash a ∧ isSlash b then
      let host := rest.takeWhile fun c => !endsAuthority .file c
      if host = [] ∨ isDriveLetter host then .ok ()
      else (specialHost names host).map fun _ => ()
    else .ok ()
  | _ => .ok ()

def readOpaque (s : List Char) : Except UrlError Unit :=
  match s with
  | '/' :: '/' :: body =>
    let authority := body.takeWhile fun c => !endsAuthority .opaqueHost c
    let tail := body.dropWhile fun c => !endsAuthority .opaqueHost c
    (readAuthority names .opaqueHost authority (tail ≠ [])).map fun _ => ()
  | _ => .ok ()

/-- Control characters and blanks at either end, and tabs and line ends anywhere, are no
part of a URL. -/
def stripUrl (s : List Char) : List Char :=
  let isEdge := fun (c : Char) => c.toNat ≤ 0x20
  let trimmed := ((s.dropWhile isEdge).reverse.dropWhile isEdge).reverse
  trimmed.filter fun c => c ≠ '\t' && c ≠ '\n' && c ≠ '\r'

/-- Reads an absolute URL. Host, port and path are filled in for special schemes other
than `file`; of the others only the faults are told. -/
def readUrl (s : List Char) : Except UrlError Url :=
  match cutScheme (stripUrl s) with
  | none => .error .noScheme
  | some (scheme, rest) =>
    let scheme := String.ofList scheme
    let empty : Url := { scheme, host := "", port := none, path := "" }
    match schemeClass scheme with
    | .special => readSpecial names scheme rest
    | .file => (readFile names rest).map fun _ => empty
    | .opaqueHost => (readOpaque names rest).map fun _ => empty

end FleetHealth.Net
