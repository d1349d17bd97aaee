/-! # Rate windows

A window holds the latest values of a counter that only grows. Its rate is the growth
over a full window, so it does not depend on how regular the polling is. Until the
window has been full once, the rate stays at zero. The buffer of a window takes 8 bytes
for a value and at most 2^63 - 1 bytes: windows beyond that cannot be made.
-/
namespace FleetHealth

structure RateWindow where
  samples : List Nat
  capacity : Nat
  rate : Nat
  warmedUp : Bool
deriving DecidableEq, Repr

namespace RateWindow

def capacityMax : Nat := 1152921504606846975

/-- The capacities that there is room for. -/
abbrev Capacity := Fin (capacityMax + 1)

instance (priority := high) (size : Nat) : OfNat Capacity size :=
  ⟨⟨size % (capacityMax + 1), Nat.mod_lt size (Nat.succ_pos capacityMax)⟩⟩

def Capacity.ofNat? (size : Nat) : Option Capacity :=
  if h : size ≤ capacityMax then some ⟨size, Nat.lt_succ_of_le h⟩ else none

def new (capacity : Capacity) : RateWindow := ⟨[], max capacity.val 1, 0, false⟩

def new? (size : Nat) : Option RateWindow := (Capacity.ofNat? size).map new

/-- Takes in the latest value. A counter that fell back has rate zero. -/
def push (w : RateWindow) (value : Nat) : RateWindow :=
  let samples := w.samples ++ [value]
  if w.capacity ≤ samples.length then
    { w with samples := samples.tail, rate := value - samples.headD value, warmedUp := true }
  else { w with samples := samples }

def size (w : RateWindow) : Nat := w.samples.length

def isEmpty (w : RateWindow) : Bool := w.samples.isEmpty

end RateWindow

inductive RateSeries where
  | transactions
  | checkpoints
  | syncedCheckpoints
  | rounds
  | certificates
deriving DecidableEq, Repr

structure RateWindows where
  transactions : RateWindow
  checkpoints : RateWindow
  syncedCheckpoints : RateWindow
  rounds : RateWindow
  certificates : RateWindow
deriving DecidableEq, Repr

namespace RateWindows

def new (capacity : RateWindow.Capacity) : RateWindows :=
  let w := RateWindow.new capacity
  ⟨w, w, w, w, w⟩

def get (ws : RateWindows) : RateSeries → RateWindow
  | .transactions => ws.transactions
  | .checkpoints => ws.checkpoints
  | .syncedCheckpoints => ws.syncedCheckpoints
  | .rounds => ws.rounds
  | .certificates => ws.certificates

def push (ws : RateWindows) (series : RateSeries) (value : Nat) : RateWindows :=
  match series with
  | .transactions => { ws with transactions := ws.transactions.push value }
  | .checkpoints => { ws with checkpoints := ws.checkpoints.push value }
  | .syncedCheckpoints => { ws with syncedCheckpoints := ws.syncedCheckpoints.push value }
  | .rounds => { ws with rounds := ws.rounds.push value }
  | .certificates => { ws with certificates := ws.certificates.push value }

theorem get_push (ws : RateWindows) (s s' : RateSeries) (value : Nat) :
    (ws.push s value).get s' = if s = s' then (ws.get s').push value else ws.get s' := by
  cases s <;> cases s' <;> rfl

end RateWindows

end FleetHealth
