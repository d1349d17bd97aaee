import FleetHealth.Proofs.Fleet.Task
import FleetHealth.Proofs.Net.AddressShape
import FleetHealth.Settings.Config

/-! # Resolved endpoints

The three ways to write an address fill in different ports, and each table needs different
ones. A resolved endpoint has the ports that its table needs, whichever way it was written,
so the URLs of a host can always be formed.
-/
namespace FleetHealth

open Fleet Net Number Settings Text

/-! ## Ports that are read -/

namespace Net

theorem readMultiaddr_ports {raw : List Char} {a : Address} (h : readMultiaddr raw = .ok a) :
    a.rpcPort = none ∧ a.metricsPort = none := by
  unfold readMultiaddr at h
  obtain ⟨m, -, h⟩ := bind_eq_ok.mp h
  cases hhost : m.host with
  | none =>
    simp only [hhost] at h
    cases h
  | some host =>
    simp only [hhost] at h
    cases h
    exact ⟨rfl, rfl⟩

theorem readUrlAddress_metricsPort {urls : List Char → Except UrlError Url} {raw : List Char}
    {a : Address} (h : readUrlAddress urls raw = .ok a) : a.metricsPort = none := by
  obtain ⟨url, -, -, rfl⟩ := readUrlAddress_eq_ok.mp h
  rfl

theorem readBare_metricsPort {raw : List Char} {a : Address} (h : readBare raw = .ok a) :
    a.metricsPort = none := by
  unfold readBare at h
  obtain ⟨⟨host, port⟩, -, h⟩ := bind_eq_ok.mp h
  dsimp only at h
  split at h
  · cases h
  · cases h
    rfl

/-- No address is written with a metrics port, and a multiaddr has none for calls either. -/
theorem Address.parse_ports {urls : List Char → Except UrlError Url} {raw : String} {a : Address}
    (h : Address.parse urls raw = .ok a) :
    a.metricsPort = none ∧ ((trim raw.toList).head? = some '/' → a.rpcPort = none) := by
  unfold parse at h
  dsimp only at h
  split at h
  · cases h
  · split at h
    · exact ⟨(readMultiaddr_ports h).2, fun _ => (readMultiaddr_ports h).1⟩
    · next hslash =>
      split at h
      · exact ⟨readUrlAddress_metricsPort h, fun hhead => absurd hhead hslash⟩
      · exact ⟨readBare_metricsPort h, fun hhead => absurd hhead hslash⟩

namespace Address

def rpcUrlAt (a : Address) (port : Nat) : String :=
  String.ofList (a.schemeText ++ a.urlHost ++ ':' :: (decimal port ++ a.pathText))

def metricsUrlAt (a : Address) (port : Nat) : String :=
  String.ofList ("http://".toList ++ a.urlHost ++ ':' :: (decimal port ++ "/metrics".toList))

end Address

end Net

/-! ## Ports that are chosen -/

namespace Settings

theorem choosePort_needed (set found : Option Nat) (default : Nat) :
    choosePort set found true default = some (set.getD (found.getD default)) := by
  cases set with
  | some port => rfl
  | none => cases found <;> rfl

/-- A port is chosen by setting one, or it is the one that was found. -/
theorem choosePort_cases (set found : Option Nat) (needed : Bool) (default : Nat) :
    (∃ port, choosePort set found needed default = some port) ∨
      choosePort set found needed default = found := by
  unfold choosePort
  split
  · exact .inl ⟨_, rfl⟩
  · exact .inr rfl
  · split
    · exact .inl ⟨_, rfl⟩
    · exact .inr rfl

/-- Ports of 16 bits are chosen from such ports. -/
theorem choosePort_le {set found : Option Nat} {needed : Bool} {default : Nat}
    (hset : ∀ port, set = some port → port ≤ portMax) (hfound : ∀ port, found = some port → port ≤ portMax)
    (hdefault : default ≤ portMax) :
    ∀ port, choosePort set found needed default = some port → port ≤ portMax := by
  intro port h
  unfold choosePort at h
  split at h
  · exact hset port h
  · exact hfound port h
  · split at h
    · exact Option.some.inj h ▸ hdefault
    · cases h

end Settings

namespace Net.Address.Configured

variable {urls : List Char → Except UrlError Url} {a : Address}

theorem chooseRpcPort (h : a.Configured urls) (set : Option Nat) (needed : Bool) (default : Nat) :
    ({ a with rpcPort := choosePort set a.rpcPort needed default } : Address).Configured urls := by
  rcases choosePort_cases set a.rpcPort needed default with ⟨port, hport⟩ | hfound
  · rw [hport]
    exact h.rpcPort port
  · rw [hfound]
    exact h

theorem chooseMetricsPort (h : a.Configured urls) (set : Option Nat) (needed : Bool) (default : Nat) :
    ({ a with metricsPort := choosePort set a.metricsPort needed default } : Address).Configured urls := by
  rcases choosePort_cases set a.metricsPort needed default with ⟨port, hport⟩ | hfound
  · rw [hport]
    exact h.metricsPort port
  · rw [hfound]
    exact h

end Net.Address.Configured

namespace Settings

namespace Endpoint

variable {urls : List Char → Except UrlError Url} {e : Endpoint} {table : Table} {a : Address}

theorem resolve_ok (h : e.resolve urls table = .ok a) :
    ∃ parsed, Address.parse urls e.address = .ok parsed ∧ a = { parsed with
      rpcPort := choosePort e.rpcPort parsed.rpcPort table.usesRpc Address.defaultRpcPort
      metricsPort :=
        choosePort e.metricsPort parsed.metricsPort table.usesMetrics Address.defaultMetricsPort
      peerPort := e.peerPort.or parsed.peerPort } := by
  unfold resolve at h
  cases hparsed : Address.parse urls e.address with
  | error fault =>
    rw [hparsed] at h
    cases h
  | ok parsed =>
    rw [hparsed] at h
    exact ⟨parsed, rfl, (Except.ok.inj h).symm⟩

/-- The port for calls is the one that is set, else the one in the text, else 9000. -/
def callPort (e : Endpoint) (parsed : Address) : Nat :=
  e.rpcPort.getD (parsed.rpcPort.getD 9000)

/-- The port for scrapes is the one that is set, else 9184. -/
def scrapePort (e : Endpoint) : Nat := e.metricsPort.getD 9184

theorem resolve_rpcUrl (h : e.resolve urls table = .ok a) {parsed : Address}
    (hparsed : Address.parse urls e.address = .ok parsed) (huses : table.usesRpc = true) :
    a.rpcUrl = .ok (parsed.rpcUrlAt (e.callPort parsed)) := by
  obtain ⟨_, hread, rfl⟩ := resolve_ok h
  cases hparsed.symm.trans hread
  rw [huses]
  unfold Address.rpcUrl
  simp only [choosePort_needed]
  rfl

theorem resolve_metricsUrl (h : e.resolve urls table = .ok a) {parsed : Address}
    (hparsed : Address.parse urls e.address = .ok parsed) (huses : table.usesMetrics = true) :
    a.metricsUrl = .ok (parsed.metricsUrlAt e.scrapePort) := by
  obtain ⟨_, hread, rfl⟩ := resolve_ok h
  cases hparsed.symm.trans hread
  rw [huses, (Address.parse_ports hparsed).1]
  unfold Address.metricsUrl
  simp only [choosePort_needed]
  rfl

/-- Whatever table an endpoint was resolved for, the table's URLs can be formed. -/
theorem resolve_hasUrls (h : e.resolve urls table = .ok a) : a.HasUrls table := by
  obtain ⟨parsed, hparsed, -⟩ := resolve_ok h
  exact ⟨fun huses => ⟨_, resolve_rpcUrl h hparsed huses⟩,
    fun huses => ⟨_, resolve_metricsUrl h hparsed huses⟩⟩

/-- A host of a resolved endpoint has the URLs that its table uses, and no others. -/
theorem resolve_host (h : e.resolve urls table = .ok a) {parsed : Address}
    (hparsed : Address.parse urls e.address = .ok parsed) (m : Metrics) :
    ∃ host, Host.new table a m = .ok host ∧
      host.rpcUrl = (if table.usesRpc then some (parsed.rpcUrlAt (e.callPort parsed)) else none) ∧
      host.metricsUrl = (if table.usesMetrics then some (parsed.metricsUrlAt e.scrapePort) else none) := by
  refine ⟨_, Host.new_of_hasUrls (resolve_hasUrls h) m, ?_, ?_⟩
  · cases huses : table.usesRpc with
    | false => simp [Host.fresh, huses]
    | true => simp [Host.fresh, huses, resolve_rpcUrl h hparsed huses, Except.toOption]
  · cases huses : table.usesMetrics with
    | false => simp [Host.fresh, huses]
    | true => simp [Host.fresh, huses, resolve_metricsUrl h hparsed huses, Except.toOption]

/-- A resolved endpoint is an address as it can be configured. -/
theorem resolve_configured (h : e.resolve urls table = .ok a) : a.Configured urls := by
  obtain ⟨parsed, hparsed, rfl⟩ := resolve_ok h
  have hrpc := (Address.Configured.parsed hparsed).chooseRpcPort e.rpcPort table.usesRpc
    Address.defaultRpcPort
  have hmetrics := hrpc.chooseMetricsPort e.metricsPort table.usesMetrics Address.defaultMetricsPort
  cases hpeer : e.peerPort with
  | none => exact hmetrics
  | some port => exact hmetrics.peerPort port

end Endpoint

/-! ## The endpoints of a table -/

theorem Config.addresses_ok {urls : List Char → Except UrlError Url} {config : Config} {table : Table}
    {addresses : List Address} (h : config.addresses urls table = .ok addresses) :
    List.Forall₂ (fun e a => e.resolve urls table = .ok a) (config.endpoints.get table) addresses :=
  mapM_mapError_eq_ok.mp h

end Settings

end FleetHealth
