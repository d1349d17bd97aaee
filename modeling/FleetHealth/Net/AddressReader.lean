import FleetHealth.Net.Address
import FleetHealth.Net.Url

/-! # Reading addresses

An address is written in one of three ways: as a URL, as a multiaddr, which is a
sequence of protocols after slashes, or as a bare host with an optional port. Blanks
around it do not count. The way is chosen by a leading slash and by `://`. URLs are left
to a reader of their own.
-/
namespace FleetHealth.Net

open Text Number

inductive AddressFault where
  | url (error : UrlError)
  | unsupportedScheme (scheme : String)
  | missingHostValue
  | missingPortValue
  | missingHostProtocol
  | unterminatedIpv6
  | invalidHost
deriving DecidableEq, Repr

def AddressFault.message : AddressFault → String
  | .url error => error.message
  | .unsupportedScheme scheme => "unsupported scheme '" ++ scheme ++ "'"
  | .missingHostValue => "missing host value"
  | .missingPortValue => "missing port value"
  | .missingHostProtocol => "missing host protocol"
  | .unterminatedIpv6 => "unterminated IPv6 literal"
  | .invalidHost => "invalid host"

inductive AddressError where
  | empty
  | invalid (raw : String) (fault : AddressFault)
  | invalidPort (raw : String)
  | missingPort (missing : MissingPort)
deriving DecidableEq, Repr

def AddressError.message : AddressError → String
  | .empty => "empty address"
  | .invalid raw fault => "invalid address '" ++ raw ++ "': " ++ fault.message
  | .invalidPort raw => "invalid port '" ++ raw ++ "'"
  | .missingPort m => "address " ++ m.address ++ " has no " ++ m.service.name ++ " port"

def readPort (s : List Char) : Except AddressError Nat :=
  match (readUnsigned? portMax s).filter (· ≠ 0) with
  | some port => .ok port
  | none => .error (.invalidPort (String.ofList s))

private def invalidAddress {α : Type} (raw : List Char) (fault : AddressFault) :
    Except AddressError α :=
  .error (.invalid (String.ofList raw) fault)

/-! ## URLs -/

/-- The path without the slashes at its end; none is left of the root. -/
def trimPath (path : String) : Option String :=
  match (path.toList.reverse.dropWhile (· = '/')).reverse with
  | [] => none
  | p => some (String.ofList p)

def readUrlAddress (urls : List Char → Except UrlError Url) (raw : List Char) :
    Except AddressError Address :=
  match urls raw with
  | .error e => invalidAddress raw (.url e)
  | .ok url =>
    if url.scheme = "http" ∨ url.scheme = "https" then
      .ok { host := url.host, rpcPort := url.port, metricsPort := none, peerPort := none
            path := trimPath url.path, tls := url.scheme = "https" }
    else invalidAddress raw (.unsupportedScheme url.scheme)

/-! ## Multiaddrs -/

structure Multiaddr where
  host : Option (List Char) := none
  port : Option Nat := none
  tls : Bool := false
deriving DecidableEq, Repr

inductive Protocol where
  | host
  | port
  | tls
  | other
deriving DecidableEq, Repr

def Protocol.ofToken (token : List Char) : Protocol :=
  let name := String.ofList token
  if name ∈ ["ip4", "ip6", "dns", "dns4", "dns6"] then .host
  else if name ∈ ["tcp", "udp"] then .port
  else if name ∈ ["https", "tls"] then .tls
  else .other

/-- Reads the protocols from left to right. Host and port protocols take the next token as
their value, whatever it is; later ones win over earlier ones. -/
def readProtocols (raw : List Char) : List (List Char) → Multiaddr → Except AddressError Multiaddr
  | [], m => .ok m
  | [token], m =>
    match Protocol.ofToken token with
    | .host => invalidAddress raw .missingHostValue
    | .port => invalidAddress raw .missingPortValue
    | .tls => .ok { m with tls := true }
    | .other => .ok m
  | token :: value :: rest, m =>
    match Protocol.ofToken token with
    | .host => readProtocols raw rest { m with host := some (lower value) }
    | .port => do
      let port ← readPort value
      readProtocols raw rest { m with port := some port }
    | .tls => readProtocols raw (value :: rest) { m with tls := true }
    | .other => readProtocols raw (value :: rest) m

def readMultiaddr (raw : List Char) : Except AddressError Address := do
  let m ← readProtocols raw ((splitAt '/' raw).filter (· ≠ [])) {}
  match m.host with
  | some host => return { host := String.ofList host, rpcPort := none, metricsPort := none
                          peerPort := m.port, path := none, tls := m.tls }
  | none => invalidAddress raw .missingHostProtocol

/-! ## Bare hosts -/

/-- Host and port of a bare address. What follows a bracketed host is a port after a colon and
is ignored otherwise; a text that is no IP literal is cut at its last colon. -/
def cutBare (raw : List Char) : Except AddressError (List Char × Option Nat) :=
  match raw with
  | '[' :: rest =>
    match cutFirst ']' rest with
    | none => invalidAddress raw .unterminatedIpv6
    | some (host, ':' :: port) => (readPort port).map fun p => (host, some p)
    | some (host, _) => .ok (host, none)
  | _ =>
    if (readIp? raw).isSome then .ok (raw, none)
    else match cutLast ':' raw with
      | some (host, port) => (readPort port).map fun p => (host, some p)
      | none => .ok (raw, none)

def readBare (raw : List Char) : Except AddressError Address := do
  let (host, port) ← cutBare raw
  if host = [] ∨ '/' ∈ host then invalidAddress raw .invalidHost
  else return { host := String.ofList (lower host), rpcPort := port, metricsPort := none
                peerPort := none, path := none, tls := false }

/-! ## All three -/

def isSchemeMark : List Char → Bool
  | ':' :: '/' :: '/' :: _ => true
  | _ => false

def hasSchemeMark : List Char → Bool
  | [] => false
  | c :: rest => isSchemeMark (c :: rest) || hasSchemeMark rest

def Address.parse (urls : List Char → Except UrlError Url) (raw : String) :
    Except AddressError Address :=
  let s := trim raw.toList
  if s = [] then .error .empty
  else if s.head? = some '/' then readMultiaddr s
  else if hasSchemeMark s then readUrlAddress urls s
  else readBare s

end FleetHealth.Net
