/-! # Health verdicts -/
namespace FleetHealth

inductive Status where
  /-- Not classified yet. -/
  | grey
  /-- Healthy and keeping up with the reference. -/
  | green
  /-- Alive but behind the reference. -/
  | yellow
  /-- Not reporting, stalled, or reporting what cannot be. -/
  | red
deriving DecidableEq, Repr

namespace Status

def name : Status → String
  | .grey => "grey"
  | .green => "green"
  | .yellow => "yellow"
  | .red => "red"

instance : ToString Status := ⟨name⟩

def isHealthy : Status → Bool
  | .green | .yellow => true
  | .grey | .red => false

end Status

end FleetHealth
