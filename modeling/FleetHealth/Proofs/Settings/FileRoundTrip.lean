import FleetHealth.Proofs.Toml.Assembly
import FleetHealth.Settings.Encode
import Mathlib.Tactic.Tauto

/-! # Files read back

A file has signed numbers of 64 bits, one bit less than a setting may have. Any other
configuration can be written, and what is read from its file is the configuration itself: an
empty list of endpoints is written as such, so that no default takes its place.
-/
namespace FleetHealth

open Chain Fleet Json Number Settings Toml

/-! ## What can be written -/

namespace Toml

theorem mapM_eq_none_iff {α β : Type} {f : α → Option β} {items : List α} :
    items.mapM f = none ↔ ∃ x ∈ items, f x = none := by
  induction items with
  | nil => simp
  | cons x items ih =>
    cases h : f x with
    | none => simp [List.mapM_cons, h]
    | some y =>
      have hrest : (x :: items).mapM f = none ↔ items.mapM f = none := by
        cases hitems : items.mapM f <;> simp [List.mapM_cons, h, hitems]
      rw [hrest, ih]
      simp [h]

theorem text?_eq_none_iff {v : Scalar} :
    v.text? = none ↔ ∃ n, v = .integer n ∧ Nat.pow 2 63 ≤ n := by
  cases v with
  | integer n =>
    simp only [Scalar.text?, ite_eq_right_iff, reduceCtorEq, imp_false, Nat.not_lt,
      Scalar.integer.injEq, exists_eq_left']
  | text s => simp [Scalar.text?]
  | bool b => simp [Scalar.text?]
  | emptyList => simp [Scalar.text?]

/-- Numbers of more than 63 bits are all that cannot be written. -/
theorem write?_eq_none_iff {sections : List Section} :
    write? sections = none ↔
      ∃ s ∈ sections, ∃ p ∈ s.settings, ∃ n, p.2 = .integer n ∧ Nat.pow 2 63 ≤ n := by
  simp [write?, mapM_eq_none_iff, Section.text?, settingLine?, text?_eq_none_iff]

end Toml

/-! ## Slots of a record -/

namespace Json

theorem knownFields_of_nodup {names : List String} (done : List (String × Json))
    {fields : List (String × Json)}
    (hknown : ∀ f ∈ fields, f.1 ∈ names) (h : (keysOf (done ++ fields)).Nodup) :
    knownFields names fields done = .ok (done ++ fields) := by
  induction fields generalizing done with
  | nil => simp [knownFields]
  | cons f fields ih =>
    have hmoved : done ++ f :: fields = done ++ [f] ++ fields := by simp
    have hnew : done.any (fun g => decide (g.1 = f.1)) = false := by
      rw [List.any_eq_false]
      intro g hg hsame
      rw [keysOf, List.map_append] at h
      exact (List.nodup_append.mp h).2.2 g.1 (List.mem_map_of_mem hg) f.1 List.mem_cons_self
        (of_decide_eq_true hsame)
    rw [knownFields, if_neg (not_not_intro (hknown f List.mem_cons_self)), hnew,
      if_neg Bool.false_ne_true, ih _ (fun f hf => hknown f (List.mem_cons_of_mem _ hf)) (hmoved ▸ h),
      hmoved]

/-- A record whose fields are known and different has all of them in its slots. -/
theorem slots_object {names : List String} {fields : List (String × Json)}
    (hknown : ∀ f ∈ fields, f.1 ∈ names) (h : (keysOf fields).Nodup) :
    slots names (.object fields) = .ok fields := knownFields_of_nodup [] hknown h

theorem get?_of_mem {fields : Slots} {name : String} {value : Json} (h : (keysOf fields).Nodup)
    (hmem : (name, value) ∈ fields) : Slots.get? fields name = some value := by
  induction fields with
  | nil => cases hmem
  | cons f fields ih =>
    have hfirst := List.nodup_cons.mp h
    rw [Slots.get?, Keyed.lookup_cons_eq]
    rcases List.mem_cons.mp hmem with rfl | hmem
    · exact if_pos rfl
    · have hname : name ∈ keysOf fields := List.mem_map_of_mem hmem
      have hne : f.1 ≠ name := by
        intro hsame
        rw [← hsame] at hname
        exact hfirst.1 hname
      rw [if_neg hne]
      exact ih hfirst.2 hmem

theorem withDefault_of_mem {α : Type} {fields : Slots} {name : String} {value : Json}
    (h : (keysOf fields).Nodup) (hmem : (name, value) ∈ fields) (default : α) (decode : Decoder α) :
    fields.withDefault name default decode = decode value := by
  rw [Slots.withDefault, get?_of_mem h hmem]

end Json

namespace Settings

/-! ## Decoding what was written -/

theorem asNat_nat {bound n : Nat} (h : n ≤ bound) : asNat bound (.nat n) = .ok n := if_pos h

theorem asChoice_priceField (f : PriceField) : asChoice .toml priceFields (.text f.name) = .ok f := by
  cases f <;> rfl

def named (present : Bool) (name : String) : List String := if present then [name] else []

def Endpoint.settings (e : Endpoint) : List (String × Scalar) :=
  ("address", .text e.address) :: e.ports.map fun p => (p.1, .integer p.2)

def Endpoint.setPorts (e : Endpoint) : List Nat :=
  [e.rpcPort, e.metricsPort, e.peerPort].filterMap id

theorem asOption_port {port : Nat} (h : port ≤ portMax) :
    asOption asPort (.nat port) = .ok (some port) := by
  rw [Json.nat, asOption, asPort, asNat, if_pos h]
  · rfl
  · exact Json.noConfusion

/-- A port that is written is found, and one that is not is absent. -/
theorem optional_port (fields : Slots) (name : String) {port : Option Nat}
    (hget : fields.get? name = port.map Json.nat) (h : ∀ p, port = some p → p ≤ portMax) :
    fields.optional name asPort = .ok port := by
  rw [Slots.optional, Slots.withDefault, hget]
  cases port with
  | none => rfl
  | some p => exact asOption_port (h p rfl)

theorem Endpoint.decode_settings {e : Endpoint} (h : ∀ port ∈ e.setPorts, port ≤ portMax) :
    Endpoint.decode (.object (recordFields e.settings)) = .ok e := by
  obtain ⟨address, rpcPort, metricsPort, peerPort⟩ := e
  simp only [setPorts, List.mem_filterMap, id_eq, exists_eq_right, List.mem_cons, List.not_mem_nil,
    or_false] at h
  have hslots : slots ["address", "rpc_port", "metrics_port", "peer_port"]
      (.object (recordFields (settings ⟨address, rpcPort, metricsPort, peerPort⟩))) =
      .ok (recordFields (settings ⟨address, rpcPort, metricsPort, peerPort⟩)) := by
    cases rpcPort <;> cases metricsPort <;> cases peerPort <;> rfl
  have haddress : Slots.required (recordFields (settings ⟨address, rpcPort, metricsPort, peerPort⟩))
      "address" asText = .ok address := rfl
  have hrpc := optional_port (recordFields (settings ⟨address, rpcPort, metricsPort, peerPort⟩)) "rpc_port"
    (by cases rpcPort <;> cases metricsPort <;> cases peerPort <;> rfl) fun p hp => h p (.inl hp.symm)
  have hmetrics := optional_port
    (recordFields (settings ⟨address, rpcPort, metricsPort, peerPort⟩)) "metrics_port"
    (by cases rpcPort <;> cases metricsPort <;> cases peerPort <;> rfl)
    fun p hp => h p (.inr (.inl hp.symm))
  have hpeer := optional_port (recordFields (settings ⟨address, rpcPort, metricsPort, peerPort⟩)) "peer_port"
    (by cases rpcPort <;> cases metricsPort <;> cases peerPort <;> rfl)
    fun p hp => h p (.inr (.inr hp.symm))
  simp only [Endpoint.decode, hslots, haddress, hrpc, hmetrics, hpeer, bind, Except.bind]

theorem decodeEndpoints {endpoints : List Endpoint}
    (h : ∀ e ∈ endpoints, ∀ port ∈ e.setPorts, port ≤ portMax) :
    asList Endpoint.decode (.list (endpoints.map fun e => .object (recordFields e.settings))) =
      .ok endpoints := by
  rw [asList]
  induction endpoints with
  | nil => rfl
  | cons e endpoints ih =>
    rw [List.map_cons, List.mapM_cons, Endpoint.decode_settings (h e List.mem_cons_self),
      ih fun e he => h e (List.mem_cons_of_mem _ he)]
    rfl

theorem decodeTolerance_settings {t : Tolerance} (htps : t.tps ≤ counterMax)
    (htransactions : t.transactions ≤ counterMax) (hcheckpoints : t.checkpoints ≤ counterMax) :
    decodeTolerance (.object (recordFields [("tps", .integer t.tps),
      ("transactions", .integer t.transactions), ("checkpoints", .integer t.checkpoints)])) = .ok t := by
  change (do
    let tps ← asNat counterMax (.nat t.tps)
    let transactions ← asNat counterMax (.nat t.transactions)
    let checkpoints ← asNat counterMax (.nat t.checkpoints)
    Except.ok (⟨tps, transactions, checkpoints⟩ : Tolerance)) = _
  rw [asNat_nat htps, asNat_nat htransactions, asNat_nat hcheckpoints]
  rfl

theorem decodeGeolocation_settings (g : Geolocation) :
    decodeGeolocation .toml (.object (recordFields (g.texts.map fun t => (t.1, .text t.2)))) = .ok g := by
  obtain ⟨mode, token⟩ := g
  cases token with
  | none => cases mode <;> rfl
  | some token => cases mode <;> rfl

theorem decodeTables_settings (s : TableSet) :
    decodeTables (.object (recordFields [("rpc", .bool s.rpc), ("nodes", .bool s.node),
      ("validators", .bool s.validator)])) = .ok s := rfl

/-! ## The sections of a configuration -/

namespace Config

variable {c : Config}

def toleranceSettings (c : Config) : List (String × Scalar) :=
  [("tps", .integer c.tolerance.tps), ("transactions", .integer c.tolerance.transactions),
    ("checkpoints", .integer c.tolerance.checkpoints)]

def geolocationSettings (c : Config) : List (String × Scalar) :=
  c.geolocation.texts.map fun t => (t.1, .text t.2)

def tableSettings (c : Config) : List (String × Scalar) :=
  [("rpc", .bool c.tables.rpc), ("nodes", .bool c.tables.node), ("validators", .bool c.tables.validator)]

def outline (c : Config) : Outline where
  plain := c.plainSettings
  tables := [("tolerance", c.toleranceSettings), ("geolocation", c.geolocationSettings),
    ("tables", c.tableSettings)]
  lists := [("rpc", c.endpoints.rpc.map Endpoint.settings),
    ("nodes", c.endpoints.node.map Endpoint.settings),
    ("validators", c.endpoints.validator.map Endpoint.settings)]

theorem sections_outline (c : Config) : c.sections = c.outline.blocks.map Block.toSection := by
  have hlist : ∀ (name : String) (endpoints : List Endpoint),
      (Outline.elementBlocks (name, endpoints.map Endpoint.settings)).map Block.toSection =
        endpoints.map (Endpoint.section name) := by
    intro name endpoints
    simp only [Outline.elementBlocks, List.map_map]
    rfl
  simp only [outline, Outline.blocks, List.flatMap_cons, List.flatMap_nil, List.append_nil, List.map_cons,
    List.map_append, hlist, List.map_nil]
  simp only [sections, ← List.append_assoc]
  rfl

/-! ## Names of settings

Which settings are written depends only on what is empty or absent. -/

/-- The names in front of all sections; each list is empty or not. -/
def plainNames (rpc node validator : Bool) : List String :=
  ["poll_interval_secs", "call_timeout_secs", "rate_window", "api_port", "enable_api",
    "gas_price_field"] ++ named rpc "rpc" ++ named node "nodes" ++ named validator "validators"

def allNames (rpc node validator : Bool) : List String :=
  plainNames rpc node validator ++ ["tolerance", "geolocation", "tables"] ++
    (named (!rpc) "rpc" ++ named (!node) "nodes" ++ named (!validator) "validators")

theorem keysOf_emptyList (name : String) (endpoints : List Endpoint) :
    keysOf (emptyList name endpoints) = named endpoints.isEmpty name := by
  cases endpoints <;> rfl

theorem keysOf_plainSettings (c : Config) : keysOf c.plainSettings =
    plainNames c.endpoints.rpc.isEmpty c.endpoints.node.isEmpty c.endpoints.validator.isEmpty := by
  have happend : ∀ a b : List (String × Scalar), keysOf (a ++ b) = keysOf a ++ keysOf b :=
    fun a b => List.map_append
  rw [plainSettings, happend, happend, happend, keysOf_emptyList, keysOf_emptyList, keysOf_emptyList]
  rfl

theorem keysOf_fields (c : Config) : keysOf c.outline.fields =
    allNames c.endpoints.rpc.isEmpty c.endpoints.node.isEmpty c.endpoints.validator.isEmpty := by
  have happend : ∀ a b : List (String × Json), keysOf (a ++ b) = keysOf a ++ keysOf b :=
    fun a b => List.map_append
  have hplain : keysOf (recordFields c.plainSettings) = keysOf c.plainSettings := by
    simp [keysOf, recordFields]
  rw [Outline.fields, happend, happend, outline, hplain, keysOf_plainSettings, allNames]
  congr 1
  obtain ⟨rpc, node, validator⟩ := c.endpoints
  cases rpc <;> cases node <;> cases validator <;> rfl

theorem plainNames_bare : ∀ rpc node validator, ∀ name ∈ plainNames rpc node validator, Bare name := by
  decide

theorem allNames_nodup : ∀ rpc node validator, (allNames rpc node validator).Nodup := by decide

theorem allNames_known : ∀ rpc node validator, ∀ name ∈ allNames rpc node validator,
    name ∈ fieldNames := by decide

def geolocationNames (token : Bool) : List String := "mode" :: named token "token"

theorem keysOf_geolocationSettings (c : Config) :
    keysOf c.geolocationSettings = geolocationNames c.geolocation.token.isSome := by
  simp only [geolocationSettings, Geolocation.texts]
  cases c.geolocation.token <;> rfl

end Config

def Endpoint.names (rpc metrics peer : Bool) : List String :=
  "address" :: (named rpc "rpc_port" ++ named metrics "metrics_port" ++
    named peer "peer_port")

theorem Endpoint.keysOf_settings (e : Endpoint) : keysOf e.settings =
    names e.rpcPort.isSome e.metricsPort.isSome e.peerPort.isSome := by
  obtain ⟨address, rpcPort, metricsPort, peerPort⟩ := e
  cases rpcPort <;> cases metricsPort <;> cases peerPort <;> rfl

theorem Endpoint.names_bare : ∀ rpc metrics peer, ∀ name ∈ names rpc metrics peer, Bare name := by
  decide

theorem Endpoint.names_nodup : ∀ rpc metrics peer, (names rpc metrics peer).Nodup := by decide

namespace Config

variable {c : Config}

theorem blockNamed {heading : Heading} {settings : List (String × Scalar)} {names : List String}
    (hheading : heading.Bare) (hkeys : keysOf settings = names) (hbare : ∀ name ∈ names, Bare name)
    (hnodup : names.Nodup) :
    Block.Bare ⟨heading, settings⟩ ∧ (keysOf (Block.settings ⟨heading, settings⟩)).Nodup := by
  subst hkeys
  exact ⟨⟨hheading, fun s hs => hbare s.1 (List.mem_map_of_mem hs)⟩, hnodup⟩

theorem blocks_named (c : Config) :
    ∀ b ∈ c.outline.blocks, b.Bare ∧ (keysOf b.settings).Nodup := by
  have hplain : ∀ rpc node validator, (plainNames rpc node validator).Nodup := by decide
  have hgeolocation : ∀ token, (∀ name ∈ geolocationNames token, Bare name) ∧
      (geolocationNames token).Nodup := by decide
  have helement : ∀ (name : String) (endpoints : List Endpoint), Bare name →
      ∀ b ∈ Outline.elementBlocks (name, endpoints.map Endpoint.settings),
        b.Bare ∧ (keysOf b.settings).Nodup := by
    intro name endpoints hname b hb
    obtain ⟨_, hsettings, rfl⟩ := List.mem_map.mp hb
    obtain ⟨e, -, rfl⟩ := List.mem_map.mp hsettings
    exact blockNamed hname e.keysOf_settings (Endpoint.names_bare _ _ _) (Endpoint.names_nodup _ _ _)
  intro b hb
  simp only [Outline.blocks, outline, List.map_cons, List.map_nil, List.flatMap_cons, List.flatMap_nil,
    List.append_nil, List.mem_cons, List.mem_append, List.not_mem_nil, or_false] at hb
  rcases hb with rfl | (rfl | rfl | rfl) | hb | hb | hb
  · exact blockNamed trivial c.keysOf_plainSettings (plainNames_bare _ _ _) (hplain _ _ _)
  · have hkeys : keysOf c.toleranceSettings = ["tps", "transactions", "checkpoints"] := rfl
    exact blockNamed (by decide : Bare "tolerance") hkeys (by decide) (by decide)
  · exact blockNamed (by decide : Bare "geolocation") c.keysOf_geolocationSettings
      (hgeolocation _).1 (hgeolocation _).2
  · have hkeys : keysOf c.tableSettings = ["rpc", "nodes", "validators"] := rfl
    exact blockNamed (by decide : Bare "tables") hkeys (by decide) (by decide)
  · exact helement "rpc" _ (by decide) b hb
  · exact helement "nodes" _ (by decide) b hb
  · exact helement "validators" _ (by decide) b hb

theorem outline_wellNamed (c : Config) : c.outline.WellNamed where
  bare b hb := (c.blocks_named b hb).1
  inner b hb := (c.blocks_named b hb).2
  top := by
    rw [keysOf_fields]
    exact allNames_nodup _ _ _

/-! ## The round trip -/

def counters (c : Config) : List Nat :=
  [c.pollIntervalSecs, c.callTimeoutSecs, c.rateWindow, c.tolerance.tps, c.tolerance.transactions,
    c.tolerance.checkpoints]

def allEndpoints (c : Config) : List Endpoint :=
  c.endpoints.rpc ++ c.endpoints.node ++ c.endpoints.validator

def ports (c : Config) : List Nat := c.apiPort :: c.allEndpoints.flatMap Endpoint.setPorts

theorem withDefault_plain {α : Type} {name : String} {v : Scalar} (h : (name, v) ∈ c.plainSettings)
    (default : α) (decode : Decoder α) :
    Slots.withDefault c.outline.fields name default decode = decode v.toJson := by
  refine withDefault_of_mem c.outline_wellNamed.top ?_ default decode
  exact List.mem_append_left _ (List.mem_append_left _ (List.mem_map.mpr ⟨_, h, rfl⟩))

theorem withDefault_table {α : Type} {name : String} (settings : List (String × Scalar))
    (h : (name, settings) ∈ c.outline.tables) (default : α) (decode : Decoder α) :
    Slots.withDefault c.outline.fields name default decode =
      decode (.object (recordFields settings)) := by
  refine withDefault_of_mem c.outline_wellNamed.top ?_ default decode
  exact List.mem_append_left _ (List.mem_append_right _ (List.mem_map.mpr ⟨_, h, rfl⟩))

/-- A list is found among the sections, or among the plain settings if it is empty. -/
theorem withDefault_list (name : String) (endpoints : List Endpoint)
    (hempty : ∀ s ∈ emptyList name endpoints, s ∈ c.plainSettings)
    (hlist : (name, endpoints.map Endpoint.settings) ∈ c.outline.lists)
    (h : ∀ e ∈ endpoints, ∀ port ∈ e.setPorts, port ≤ portMax) (default : List Endpoint) :
    Slots.withDefault c.outline.fields name default (asList Endpoint.decode) = .ok endpoints := by
  have hdecode := decodeEndpoints h
  cases endpoints with
  | nil =>
    rw [withDefault_plain (hempty (name, .emptyList) List.mem_cons_self)]
    exact hdecode
  | cons e endpoints =>
    have hmem : (name, Json.list ((e :: endpoints).map fun e => .object (recordFields e.settings))) ∈
        c.outline.fields := by
      refine List.mem_append_right _ (List.mem_map.mpr ⟨_, List.mem_filter.mpr ⟨hlist, by simp⟩, ?_⟩)
      simp only [List.map_map]
      rfl
    rw [withDefault_of_mem c.outline_wellNamed.top hmem, hdecode]

theorem decode_fields (hcounters : ∀ n ∈ c.counters, n ≤ counterMax)
    (hports : ∀ port ∈ c.ports, port ≤ portMax) :
    Config.decode .toml (.object c.outline.fields) = .ok c := by
  have hslots : slots fieldNames (.object c.outline.fields) = .ok c.outline.fields := by
    refine slots_object (fun f hf => ?_) c.outline_wellNamed.top
    have hname : f.1 ∈ keysOf c.outline.fields := List.mem_map_of_mem hf
    rw [keysOf_fields] at hname
    exact allNames_known _ _ _ f.1 hname
  have hcounter : ∀ {n}, n ∈ c.counters → asNat counterMax (.nat n) = .ok n :=
    fun hn => asNat_nat (hcounters _ hn)
  have hsetPorts : ∀ e ∈ c.allEndpoints, ∀ port ∈ e.setPorts, port ≤ portMax :=
    fun e he port hport => hports port (List.mem_cons_of_mem _ (List.mem_flatMap.mpr ⟨e, he, hport⟩))
  have hrpc := withDefault_list (c := c) "rpc" c.endpoints.rpc
    (fun s hs => by simp [plainSettings, hs]) (by simp [outline])
    (fun e he => hsetPorts e (by simp [allEndpoints, he]))
  have hnode := withDefault_list (c := c) "nodes" c.endpoints.node
    (fun s hs => by simp [plainSettings, hs]) (by simp [outline])
    (fun e he => hsetPorts e (by simp [allEndpoints, he]))
  have hvalidator := withDefault_list (c := c) "validators" c.endpoints.validator
    (fun s hs => by simp [plainSettings, hs]) (by simp [outline])
    (fun e he => hsetPorts e (by simp [allEndpoints, he]))
  have hplain : ∀ name n (default : Nat), (name, .integer n) ∈ c.plainSettings → n ∈ c.counters →
      Slots.withDefault c.outline.fields name default (asNat counterMax) = .ok n :=
    fun _ _ default hmem hn => (withDefault_plain hmem default _).trans (hcounter hn)
  have hinterval := hplain "poll_interval_secs" c.pollIntervalSecs
    Config.default.pollIntervalSecs (by simp [plainSettings]) (by simp [counters])
  have htimeout := hplain "call_timeout_secs" c.callTimeoutSecs
    Config.default.callTimeoutSecs (by simp [plainSettings]) (by simp [counters])
  have hwindow := hplain "rate_window" c.rateWindow
    Config.default.rateWindow (by simp [plainSettings]) (by simp [counters])
  have hport : Slots.withDefault c.outline.fields "api_port" Config.default.apiPort asPort =
      .ok c.apiPort :=
    (withDefault_plain (v := .integer c.apiPort) (by simp [plainSettings]) _ _).trans
      (asNat_nat (hports c.apiPort List.mem_cons_self))
  have hserve : Slots.withDefault c.outline.fields "enable_api" Config.default.enableApi asBool =
      .ok c.enableApi := withDefault_plain (v := .bool c.enableApi) (by simp [plainSettings]) _ _
  have hprices : Slots.withDefault c.outline.fields "gas_price_field" Config.default.priceField
      (asChoice .toml priceFields) = .ok c.priceField :=
    (withDefault_plain (v := .text c.priceField.name) (by simp [plainSettings]) _ _).trans
      (asChoice_priceField c.priceField)
  have htolerance : Slots.withDefault c.outline.fields "tolerance" Config.default.tolerance
      decodeTolerance = .ok c.tolerance :=
    (withDefault_table c.toleranceSettings (by simp [outline]) _ _).trans
      (decodeTolerance_settings (hcounters _ (by simp [counters])) (hcounters _ (by simp [counters]))
        (hcounters _ (by simp [counters])))
  have hgeolocation : Slots.withDefault c.outline.fields "geolocation" Config.default.geolocation
      (decodeGeolocation .toml) = .ok c.geolocation :=
    (withDefault_table c.geolocationSettings (by simp [outline]) _ _).trans
      (decodeGeolocation_settings c.geolocation)
  have htables : Slots.withDefault c.outline.fields "tables" Config.default.tables decodeTables =
      .ok c.tables :=
    (withDefault_table c.tableSettings (by simp [outline]) _ _).trans
      (decodeTables_settings c.tables)
  simp only [Config.decode, hslots, hinterval, htimeout, hwindow, hport, hserve, hprices, htolerance,
    hgeolocation, htables, hrpc, hnode, hvalidator, bind, Except.bind]

/-- Some setting among these has the number. -/
def Holds (settings : List (String × Scalar)) (n : Nat) : Prop := ∃ p ∈ settings, p.2 = .integer n

theorem holds_append {front back : List (String × Scalar)} {n : Nat} :
    Holds (front ++ back) n ↔ Holds front n ∨ Holds back n := by
  simp [Holds, or_and_right, exists_or]

theorem not_holds_emptyList {name : String} {endpoints : List Endpoint} {n : Nat} :
    ¬Holds (emptyList name endpoints) n := by
  cases endpoints <;> simp [Holds, emptyList]

theorem holds_plainSettings {n : Nat} : Holds c.plainSettings n ↔
    n ∈ [c.pollIntervalSecs, c.callTimeoutSecs, c.rateWindow, c.apiPort] := by
  simp only [plainSettings, holds_append, not_holds_emptyList, or_false]
  simp [Holds, eq_comm]

theorem not_holds_geolocationSettings {n : Nat} : ¬Holds c.geolocationSettings n := by
  rintro ⟨p, hp, hn⟩
  obtain ⟨t, -, rfl⟩ := List.mem_map.mp hp
  cases hn

theorem holds_endpoint {e : Endpoint} {n : Nat} : Holds e.settings n ↔ n ∈ e.setPorts := by
  obtain ⟨address, rpcPort, metricsPort, peerPort⟩ := e
  cases rpcPort <;> cases metricsPort <;> cases peerPort <;>
    simp [Holds, Endpoint.settings, Endpoint.ports, Endpoint.setPorts, eq_comm]

theorem holds_endpoints {name : String} {endpoints : List Endpoint} {n : Nat} :
    (∃ s ∈ endpoints.map (Endpoint.section name), Holds s.settings n) ↔
      n ∈ endpoints.flatMap Endpoint.setPorts := by
  have hsection : ∀ e : Endpoint, Holds (e.section name).settings n ↔ n ∈ e.setPorts :=
    fun e => holds_endpoint
  simp [hsection]

/-- The numbers of a configuration are those of its sections. -/
theorem holds_sections {n : Nat} :
    (∃ s ∈ c.sections, Holds s.settings n) ↔ n ∈ c.counters ++ c.ports := by
  have htolerance : Holds c.toleranceSettings n ↔
      n ∈ [c.tolerance.tps, c.tolerance.transactions, c.tolerance.checkpoints] := by
    simp [Holds, toleranceSettings, eq_comm]
  have htables : ¬Holds c.tableSettings n := by simp [Holds, tableSettings]
  have hsections : (∃ s ∈ c.sections, Holds s.settings n) ↔
      Holds c.plainSettings n ∨ Holds c.toleranceSettings n ∨ Holds c.geolocationSettings n ∨
        Holds c.tableSettings n ∨ n ∈ c.allEndpoints.flatMap Endpoint.setPorts := by
    simp only [sections, List.mem_append, or_and_right, exists_or, holds_endpoints, allEndpoints,
      List.flatMap_append, List.mem_cons, List.not_mem_nil, or_false, exists_eq_left, or_assoc]
    rfl
  rw [hsections, holds_plainSettings, htolerance]
  simp only [not_holds_geolocationSettings, htables, false_or, counters, ports, List.mem_append,
    List.mem_cons, List.not_mem_nil, or_false]
  grind

theorem save?_eq_none_iff :
    c.save? = none ↔ ∃ n ∈ c.counters ++ c.ports, Nat.pow 2 63 ≤ n := by
  rw [save?, write?_eq_none_iff]
  constructor
  · rintro ⟨s, hs, p, hp, n, hn, hlarge⟩
    exact ⟨n, holds_sections.mp ⟨s, hs, p, hp, hn⟩, hlarge⟩
  · rintro ⟨n, hn, hlarge⟩
    obtain ⟨s, hs, p, hp, heq⟩ := holds_sections.mpr hn
    exact ⟨s, hs, p, hp, n, heq, hlarge⟩

/-- Saving fails exactly where a number has more than 63 bits. What was saved of any other
configuration is loaded as the same configuration. -/
theorem saved_loads_back (c : Config) (hports : ∀ port ∈ c.ports, port ≤ portMax) :
    (c.save? = none ↔ ∃ n ∈ c.counters ++ c.ports, Nat.pow 2 63 ≤ n) ∧
      ((∀ n ∈ c.counters, n < Nat.pow 2 63) → ∃ text, c.save? = some text ∧ load? text = some c) := by
  refine ⟨save?_eq_none_iff, fun hcounters => ?_⟩
  have hsaved : c.save? ≠ none := by
    rw [ne_eq, save?_eq_none_iff]
    rintro ⟨n, hn, hlarge⟩
    rcases List.mem_append.mp hn with hn | hn
    · exact absurd (hcounters n hn) (Nat.not_lt.mpr hlarge)
    · have hsmall := hports n hn
      have hbound : portMax < Nat.pow 2 63 := by decide
      omega
  obtain ⟨text, htext⟩ := Option.ne_none_iff_exists'.mp hsaved
  refine ⟨text, htext, ?_⟩
  have hparsed : Toml.parse? text = some (.object c.outline.fields) := by
    rw [save?, sections_outline] at htext
    exact c.outline_wellNamed.parse? htext
  have hbound : Nat.pow 2 63 ≤ counterMax := by decide
  have hdecoded := decode_fields (fun n hn => Nat.le_of_lt (Nat.lt_of_lt_of_le (hcounters n hn) hbound))
    hports
  rw [load?, hparsed]
  simp [hdecoded, Except.toOption]

/-- Texts that need every kind of quotes, an empty list, and the largest numbers. -/
def awkward : Config :=
  { Config.default with
    rateWindow := Nat.pow 2 63 - 1
    geolocation := ⟨.required, some "a\\b\x07\n\"\"\"\x27\x27\x27"⟩
    endpoints := ⟨[], [⟨"\x27\n\"two\"\x27\x27", some 65535, none, some 0⟩, .ofAddress ""], []⟩ }

theorem awkward_loads_back : (∀ port ∈ awkward.ports, port ≤ portMax) ∧
    (∀ n ∈ awkward.counters, n < Nat.pow 2 63) ∧
    ∃ text, awkward.save? = some text ∧ load? text = some awkward := by
  have hports : ∀ port ∈ awkward.ports, port ≤ portMax := by decide
  have hcounters : ∀ n ∈ awkward.counters, n < Nat.pow 2 63 := by decide
  exact ⟨hports, hcounters, (saved_loads_back awkward hports).2 hcounters⟩

end Config

end Settings

end FleetHealth
