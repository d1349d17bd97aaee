import FleetHealth.Net.Ip

/-! # Endpoint addresses

An `Address` names one endpoint of the fleet. From it come the URLs to poll, the key
under which repetitions are recognised and carried data is kept, and the text shown
in messages. Hosts are in lower case; an IPv6 host stands without brackets.
-/
namespace FleetHealth.Net

open Text Number

structure Address where
  host : String
  rpcPort : Option Nat
  metricsPort : Option Nat
  peerPort : Option Nat
  path : Option String
  tls : Bool
deriving DecidableEq, Repr

inductive Service where
  | rpc
  | metrics
deriving DecidableEq, Repr

def Service.name : Service → String
  | .rpc => "rpc"
  | .metrics => "metrics"

structure MissingPort where
  address : String
  service : Service
deriving DecidableEq, Repr

namespace Address

def defaultRpcPort : Nat := 9000

def defaultMetricsPort : Nat := 9184

def withRpcPort (a : Address) (port : Nat) : Address := { a with rpcPort := some port }

def withMetricsPort (a : Address) (port : Nat) : Address := { a with metricsPort := some port }

def withPeerPort (a : Address) (port : Nat) : Address := { a with peerPort := some port }

def ip? (a : Address) : Option IpAddress := readIp? a.host.toList

/-- The host as it stands in a URL: an IPv6 literal in brackets. -/
def urlHost (a : Address) : List Char :=
  match a.ip? with
  | some ip => if ip.isV6 then '[' :: (a.host.toList ++ [']']) else a.host.toList
  | none => a.host.toList

def pathText (a : Address) : List Char := (a.path.getD "").toList

/-- The text shown in messages: the host, the first port that is known and the path. -/
def text (a : Address) : List Char :=
  let port := match a.rpcPort, a.metricsPort, a.peerPort with
    | some p, _, _ | none, some p, _ | none, none, some p => ':' :: decimal p
    | none, none, none => []
  a.urlHost ++ port ++ a.pathText

instance : ToString Address where
  toString a := String.ofList a.text

def schemeText (a : Address) : List Char :=
  if a.tls then "https://".toList else "http://".toList

def portText (port : Option Nat) : List Char :=
  match port with
  | some p => decimal p
  | none => []

/-- The text under which an address is known: it tells any two addresses apart. -/
def key (a : Address) : String :=
  String.ofList (a.schemeText ++ a.host.toList ++ "|rpc=".toList ++ portText a.rpcPort
    ++ "|metrics=".toList ++ portText a.metricsPort ++ "|peer=".toList ++ portText a.peerPort
    ++ '|' :: a.pathText)

def rpcUrl (a : Address) : Except MissingPort String :=
  match a.rpcPort with
  | some port => .ok (String.ofList (a.schemeText ++ a.urlHost ++ ':' :: (decimal port ++ a.pathText)))
  | none => .error ⟨toString a, .rpc⟩

/-- The metrics endpoint, which is never behind TLS and has a path of its own. -/
def metricsUrl (a : Address) : Except MissingPort String :=
  match a.metricsPort with
  | some port => .ok (String.ofList
      ("http://".toList ++ a.urlHost ++ ':' :: (decimal port ++ "/metrics".toList)))
  | none => .error ⟨toString a, .metrics⟩

end Address

end FleetHealth.Net
