import FleetHealth.Gateway.Call
import FleetHealth.Json.Decode
import FleetHealth.Json.Reader
import FleetHealth.Net.Percent

/-! # Clients

Gateway calls as exchanges over HTTP: which request a call makes, and what its reply
means. The exchange itself is a function from requests to replies.
-/
namespace FleetHealth.Gateway

open Exposition Json Net

structure HttpRequest where
  verb : String
  url : String
  body : Option Json
deriving Repr

inductive HttpReply where
  | response (status : Nat) (body : String)
  | timedOut
  /-- No reply came through. -/
  | failed (reason : String)
deriving DecidableEq, Repr

abbrev Http := HttpRequest → HttpReply

def isSuccess (status : Nat) : Bool := 200 ≤ status && status < 300

def readReply {α : Type} (endpoint : String) (onTimeout : GatewayError)
    (read : String → Except GatewayError α) : HttpReply → Except GatewayError α
  | .response code body =>
    if isSuccess code then read body else .error (.status endpoint code)
  | .timedOut => .error onTimeout
  | .failed reason => .error (.transport endpoint reason)

def decodeBody {α : Type} (endpoint : String) (decode : Decoder α) (body : String) :
    Except GatewayError α :=
  match Json.parse? body with
  | none => .error (.undecodable endpoint "not a JSON value")
  | some value => (decode value).mapError fun m => .undecodable endpoint m.message

/-! ## Remote calls -/

structure RpcFault where
  code : Int
  message : String
deriving DecidableEq, Repr

structure RpcAnswer where
  result : Option Json
  error : Option RpcFault
deriving Repr

def RpcFault.decode : Decoder RpcFault := fun value => do
  let slots ← slots ["code", "message"] value
  .ok {
    code := ← slots.required "code" asInt
    message := ← slots.required "message" asText }

def RpcAnswer.decode : Decoder RpcAnswer := fun value => do
  let slots ← slots ["result", "error"] value
  .ok {
    result := ← slots.optional "result" fun value => .ok value.canonical
    error := ← slots.optional "error" RpcFault.decode }

/-- The result of a call. An answer may report an error, and it may be empty. -/
def RpcAnswer.value (method : RpcMethod) (a : RpcAnswer) : Except GatewayError Json :=
  match a.error, a.result with
  | some fault, _ => .error (.rpc method.name fault.code fault.message)
  | none, some value => .ok value
  | none, none => .error (.emptyResult method.name)

def rpcRequest (endpoint : String) (method : RpcMethod) (id : Nat) : HttpRequest :=
  ⟨"POST", endpoint, some (.object [("jsonrpc", .text "2.0"), ("method", .text method.name),
    ("params", .list []), ("id", .nat id)])⟩

def readRpc (endpoint : String) (method : RpcMethod) (timeout : Nat) :
    HttpReply → Except GatewayError Json :=
  readReply endpoint (.timeout (endpoint ++ " " ++ method.name) timeout) fun body =>
    (decodeBody endpoint RpcAnswer.decode body).bind (RpcAnswer.value method)

/-! ## Scrapes -/

def scrapeRequest (endpoint : String) : HttpRequest := ⟨"GET", endpoint, none⟩

def readScrape (endpoint : String) (specs : List SeriesSpec) (timeout : Nat) :
    HttpReply → Except GatewayError (Keyed Scraped) :=
  readReply endpoint (.timeout ("scrape " ++ endpoint) timeout) fun body =>
    .ok (select (Exposition.parse body) specs)

/-! ## Locations -/

def locationService : String := "https://api.ipinfo.io/lite"

structure LocationAnswer where
  countryCode : Option String
  country : Option String
  owner : Option String
deriving DecidableEq, Repr

def LocationAnswer.decode : Decoder LocationAnswer := fun value => do
  let slots ← slots ["country_code", "country", "as_name"] value
  .ok {
    countryCode := ← slots.optional "country_code" asText
    country := ← slots.optional "country" asText
    owner := ← slots.optional "as_name" asText }

/-- There is no location without a country code; a missing country is named by its code. -/
def LocationAnswer.location (endpoint : String) (a : LocationAnswer) :
    Except GatewayError Location :=
  match a.countryCode with
  | none => .error (.undecodable endpoint "missing country_code")
  | some code => .ok {
      countryCode := code
      countryName := a.country.getD code
      flag := flagGlyph code
      organization := a.owner.getD "" }

def locationEndpoint (service : String) (ip : IpAddress) : String :=
  service ++ "/" ++ String.ofList ip.text

def plainInQuery (c : Char) : Bool :=
  c.isAlphanum || c = '*' || c = '-' || c = '.' || c = '_'

def encodeQuery (s : List Char) : List Char :=
  s.flatMap fun c =>
    if plainInQuery c then [c]
    else if c = ' ' then ['+']
    else (bytesOf c).flatMap escapeByte

def locationRequest (service : String) (token : Option String) (ip : IpAddress) : HttpRequest :=
  let query := match token with
    | some token => "?token=" ++ String.ofList (encodeQuery token.toList)
    | none => ""
  ⟨"GET", locationEndpoint service ip ++ query, none⟩

/-- A lookup that runs out of time is not told apart from one that fails. -/
def readLocation (endpoint : String) : HttpReply → Except GatewayError Location :=
  readReply endpoint (.transport endpoint "timed out") fun body =>
    (decodeBody endpoint LocationAnswer.decode body).bind (LocationAnswer.location endpoint)

/-! ## Gateways -/

/-- The position of a method among the calls of a host. -/
def requestId : RpcMethod → Nat
  | .totalTransactionBlocks => 1
  | .latestCheckpoint => 2
  | .systemState => 3
  | .validatorsApy => 4

/-- Gateways over an exchange that replies at once. -/
def httpGateways (http : Http) (timeout : Nat) (token : Option String)
    (resolve : String → Option IpAddress) : Gateways where
  rpc endpoint method :=
    .after 0 (readRpc endpoint method timeout (http (rpcRequest endpoint method (requestId method))))
  scrape endpoint specs :=
    .after 0 (readScrape endpoint specs timeout (http (scrapeRequest endpoint)))
  locate ip :=
    .after 0 (readLocation (locationEndpoint locationService ip)
      (http (locationRequest locationService token ip)))
  resolve := resolve

def offline : Http := fun _ => .failed "connection refused"

end FleetHealth.Gateway
