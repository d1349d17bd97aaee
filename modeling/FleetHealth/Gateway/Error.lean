import FleetHealth.Clock.Span
import FleetHealth.Number.Numeral

/-! # Failures of gateway calls -/
namespace FleetHealth.Gateway

open Clock Number

inductive GatewayError where
  | transport (endpoint message : String)
  | status (endpoint : String) (code : Nat)
  | timeout (operation : String) (ms : Nat)
  | cancelled (operation : String)
  | rpc (method : String) (code : Int) (message : String)
  | emptyResult (method : String)
  | undecodable (endpoint message : String)
  | missingMetric (name : String)
deriving DecidableEq, Repr

def GatewayError.message : GatewayError → String
  | .transport endpoint message => "transport error calling " ++ endpoint ++ ": " ++ message
  | .status endpoint code => endpoint ++ " returned HTTP " ++ toString code
  | .timeout operation ms => operation ++ " timed out after " ++ spanText ms
  | .cancelled operation => operation ++ " cancelled"
  | .rpc method code message =>
    "rpc error " ++ toString code ++ " from " ++ method ++ ": " ++ message
  | .emptyResult method => method ++ " returned an empty result"
  | .undecodable endpoint message =>
    "failed to decode response from " ++ endpoint ++ ": " ++ message
  | .missingMetric name => "metric '" ++ name ++ "' not found in scrape"

end FleetHealth.Gateway
