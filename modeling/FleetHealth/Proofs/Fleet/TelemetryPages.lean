import FleetHealth.Fleet.Telemetry
import FleetHealth.Json.Printer
import FleetHealth.Proofs.Exposition.PageTexts
import FleetHealth.Proofs.Number.Words

/-! # Telemetry read from its own page

The metrics page of the monitor is one that the monitor can read itself. After any updates it has
one sample for every figure of the JSON export and no others, and the value of a sample is what is
read from the digits that stand there.
-/
namespace FleetHealth

open Number Text Exposition

/-! ## Pages line by line -/

namespace Exposition

def samplesIn (text : List Char) : List Sample := (splitAt '\n' text).filterMap lineSample?

theorem parse_eq_samplesIn (body : String) : parse body = samplesIn body.toList := parse_eq_pieces body

theorem samplesIn_row (row : Row) (rest : List Char) :
    samplesIn (row.text ++ '\n' :: rest) = row.sample?.toList ++ samplesIn rest := by
  rw [samplesIn, splitAt_append rest row.newline_notMem_text, List.filterMap_cons, row.lineSample?_text]
  cases row.sample? <;> rfl

def countLine (name : String) (labels : List (String × String)) (n : Nat) : List Char :=
  name.toList ++ (labelSet false labels ++ ' ' :: decimal n)

section

variable {name : String} {labels : List (String × String)}

theorem samplesIn_countLine (n : Nat) (named : isName isSampleStart name.toList = true)
    (labelled : ∀ l ∈ labels, isName isLabelStart l.1.toList = true)
    (distinct : Keyed.Distinct labels) (rest : List Char) :
    samplesIn (countLine name labels n ++ '\n' :: rest) =
      ⟨name, ⟨labels⟩, .ofNat n⟩ :: samplesIn rest := by
  let w : WrittenSample := {
    sample := ⟨name, ⟨labels⟩, .ofNat n⟩
    trailing := false
    gap := oneSpace
    token := decimal n
    stamp := none
    named := named
    labelled := labelled
    distinct := distinct
    valued := readDouble?_decimal n }
  have htext : countLine name labels n = w.text := by
    simp [countLine, w, WrittenSample.text, WrittenSample.tail, WrittenSample.after, oneSpace]
  rw [htext]
  exact samplesIn_row (.sample w) rest

theorem samplesIn_countLines {samples : List (List (String × String) × Nat)}
    (named : isName isSampleStart name.toList = true)
    (labelled : ∀ s ∈ samples, ∀ l ∈ s.1, isName isLabelStart l.1.toList = true)
    (distinct : ∀ s ∈ samples, Keyed.Distinct s.1) (rest : List Char) :
    samplesIn (samples.flatMap (fun s => countLine name s.1 s.2 ++ ['\n']) ++ rest) =
      samples.map (fun s => ⟨name, ⟨s.1⟩, .ofNat s.2⟩) ++ samplesIn rest := by
  induction samples with
  | nil => rfl
  | cons s samples ih =>
    rw [List.forall_mem_cons] at labelled distinct
    rw [List.flatMap_cons, List.append_assoc, List.append_assoc, List.singleton_append,
      samplesIn_countLine s.2 named labelled.1 distinct.1, ih labelled.2 distinct.2]
    rfl

end

theorem samplesIn_comment {text : List Char} (oneLine : '\n' ∉ text) (rest : List Char) :
    samplesIn ('#' :: (text ++ '\n' :: rest)) = samplesIn rest :=
  samplesIn_row (.comment [] text (by simp) oneLine) rest

theorem samplesIn_blank (rest : List Char) : samplesIn ('\n' :: rest) = samplesIn rest :=
  samplesIn_row (.blank [] (by simp)) rest

end Exposition

def Json.at? (j : Json) (path : List String) : Option Json :=
  path.foldlM (fun value name => value.field? name) j

namespace Fleet.Telemetry

/-! ## The page of the monitor -/

theorem toList_family (name help type : String) (samples : List (List (String × String) × Nat))
    (rest : List Char) :
    (family name help type (samples.map fun s => (String.ofList (labelSet false s.1), s.2))).toList ++ rest =
      '#' :: (" HELP ".toList ++ name.toList ++ ' ' :: help.toList ++ '\n' ::
        '#' :: (" TYPE ".toList ++ name.toList ++ ' ' :: type.toList ++ '\n' ::
          (samples.flatMap (fun s => countLine name s.1 s.2 ++ ['\n']) ++ '\n' :: rest))) := by
  unfold family
  simp [String.toList_append, String.toList_join, List.flatMap_map, decimal, countLine]

/-- A family is read as its samples, and what comes after it by itself. -/
theorem samplesIn_family {name help type : String} {samples : List (List (String × String) × Nat)}
    (named : isName isSampleStart name.toList = true)
    (oneLine : '\n' ∉ help.toList ∧ '\n' ∉ type.toList)
    (labelled : ∀ s ∈ samples, ∀ l ∈ s.1, isName isLabelStart l.1.toList = true)
    (distinct : ∀ s ∈ samples, Keyed.Distinct s.1) (rest : List Char) :
    samplesIn ((family name help type
        (samples.map fun s => (String.ofList (labelSet false s.1), s.2))).toList ++ rest) =
      samples.map (fun s => ⟨name, ⟨s.1⟩, .ofNat s.2⟩) ++ samplesIn rest := by
  have hname : '\n' ∉ name.toList := fun hmem => by cases isPlain_of_isName named _ hmem
  rw [toList_family, samplesIn_comment (by simp [hname, oneLine.1]),
    samplesIn_comment (by simp [hname, oneLine.2]), samplesIn_countLines named labelled distinct,
    samplesIn_blank]

theorem samplesIn_single {name help type : String} (named : isName isSampleStart name.toList = true)
    (oneLine : '\n' ∉ help.toList ∧ '\n' ∉ type.toList) (n : Nat) (rest : List Char) :
    samplesIn ((single name help type n).toList ++ rest) = ⟨name, .empty, .ofNat n⟩ :: samplesIn rest :=
  @samplesIn_family name help type [([], n)] named oneLine
    (List.forall_mem_singleton.mpr fun _ hl => absurd hl List.not_mem_nil)
    (List.forall_mem_singleton.mpr List.nodup_nil) rest

theorem toList_statusLabel (status : Status) :
    statusLabel status = String.ofList (labelSet false [("status", status.name)]) := by
  cases status <;> decide

/-- A figure that both exports show: the name and the labels of its sample, the fields that lead to
it in the JSON export, and what it is at some uptime. -/
structure ExportedFigure where
  series : String
  labels : List (String × String)
  path : List String
  value : Telemetry → Nat → Nat

def exportedFigures : List ExportedFigure :=
  [⟨"fleet_monitor_uptime_seconds", [], ["uptime_secs"], fun _ uptime => uptime⟩,
    ⟨"fleet_monitor_cycles_total", [], ["cycles", "run"], fun t _ => t.cyclesRun⟩,
    ⟨"fleet_monitor_cycles_failed_total", [], ["cycles", "failed"], fun t _ => t.cyclesFailed⟩,
    ⟨"fleet_monitor_last_cycle_milliseconds", [], ["cycles", "last_ms"], fun t _ => t.lastCycleMs⟩,
    ⟨"fleet_monitor_hosts_collected_total", [], ["hosts", "collected"], fun t _ => t.hostsCollected⟩,
    ⟨"fleet_monitor_host_failures_total", [], ["hosts", "failures"], fun t _ => t.hostFailures⟩,
    ⟨"fleet_monitor_hosts", [("status", "green")], ["hosts", "green"], fun t _ => t.green⟩,
    ⟨"fleet_monitor_hosts", [("status", "yellow")], ["hosts", "yellow"], fun t _ => t.yellow⟩,
    ⟨"fleet_monitor_hosts", [("status", "red")], ["hosts", "red"], fun t _ => t.red⟩,
    ⟨"fleet_monitor_reference_gas_price", [], ["gas", "reference"], fun t _ => t.referencePrice⟩,
    ⟨"fleet_monitor_estimated_gas_price", [], ["gas", "estimated_next"], fun t _ => t.estimatedPrice⟩]

theorem samplesIn_hosts (green yellow red : Nat) (rest : List Char) :
    samplesIn ((family "fleet_monitor_hosts" "Hosts per health verdict in the last cycle" "gauge"
        [(statusLabel .green, green), (statusLabel .yellow, yellow),
          (statusLabel .red, red)]).toList ++ rest) =
      ⟨"fleet_monitor_hosts", ⟨[("status", "green")]⟩, .ofNat green⟩ ::
        ⟨"fleet_monitor_hosts", ⟨[("status", "yellow")]⟩, .ofNat yellow⟩ ::
        ⟨"fleet_monitor_hosts", ⟨[("status", "red")]⟩, .ofNat red⟩ :: samplesIn rest := by
  simp only [toList_statusLabel]
  exact @samplesIn_family _ _ _ [([("status", "green")], green), ([("status", "yellow")], yellow),
    ([("status", "red")], red)] (by decide) (by decide) (by simp; decide) (by simp [Keyed.Distinct]) rest

theorem parse_toPage (t : Telemetry) (uptime : Nat) :
    parse (t.toPage uptime) =
      exportedFigures.map fun f => ⟨f.series, ⟨f.labels⟩, .ofNat (f.value t uptime)⟩ := by
  unfold toPage
  -- Nothing stands after the last family, which is read as the others are.
  rw [parse_eq_samplesIn, ← List.append_nil (String.toList _)]
  simp only [String.toList_append, List.append_assoc]
  rw [samplesIn_single (by decide) (by decide), samplesIn_single (by decide) (by decide),
    samplesIn_single (by decide) (by decide), samplesIn_single (by decide) (by decide),
    samplesIn_single (by decide) (by decide), samplesIn_single (by decide) (by decide), samplesIn_hosts,
    samplesIn_single (by decide) (by decide), samplesIn_single (by decide) (by decide)]
  rfl

/-! ## The figures in the JSON export -/

theorem at?_toJson (t : Telemetry) (uptime : Nat) :
    ∀ f ∈ exportedFigures, (t.toJson uptime).at? f.path = some (.nat (f.value t uptime)) := by
  simp only [exportedFigures, List.forall_mem_cons]
  exact ⟨rfl, rfl, rfl, rfl, rfl, rfl, rfl, rfl, rfl, rfl, rfl, nofun⟩

/-! ## Updates -/

/-- What the monitor tells its telemetry. There are no more statuses than a counter can count. -/
inductive Update where
  | countRun
  | countFailed
  | addHosts (count : UInt64)
  | addFailures (count : UInt64)
  | setLastCycle (ms : UInt64)
  | setPrices (reference estimated : UInt64)
  | setStatuses (statuses : List Status) (held : statuses.length ≤ counterMax)

def apply (t : Telemetry) : Update → Telemetry
  | .countRun => t.countRun
  | .countFailed => t.countFailed
  | .addHosts count => t.addHosts count.toNat
  | .addFailures count => t.addFailures count.toNat
  | .setLastCycle ms => t.setLastCycle ms.toNat
  | .setPrices reference estimated => t.setPrices reference.toNat estimated.toNat
  | .setStatuses statuses _ => t.setStatuses statuses

def run (updates : List Update) : Telemetry := updates.foldl apply zero

/-- All that is counted or set is held in its word. -/
structure InWords (t : Telemetry) : Prop where
  cyclesRun : t.cyclesRun ≤ counterMax
  cyclesFailed : t.cyclesFailed ≤ counterMax
  hostsCollected : t.hostsCollected ≤ counterMax
  hostFailures : t.hostFailures ≤ counterMax
  lastCycleMs : t.lastCycleMs ≤ counterMax
  referencePrice : t.referencePrice ≤ counterMax
  estimatedPrice : t.estimatedPrice ≤ counterMax
  green : t.green ≤ counterMax
  yellow : t.yellow ≤ counterMax
  red : t.red ≤ counterMax

theorem InWords.zero : zero.InWords := by
  constructor <;> exact Nat.zero_le _

theorem InWords.apply {t : Telemetry} (h : t.InWords) (update : Update) : (t.apply update).InWords := by
  cases update with
  | countRun => exact { h with cyclesRun := wrapCounter_le _ }
  | countFailed => exact { h with cyclesFailed := wrapCounter_le _ }
  | addHosts count => exact { h with hostsCollected := wrapCounter_le _ }
  | addFailures count => exact { h with hostFailures := wrapCounter_le _ }
  | setLastCycle ms => exact { h with lastCycleMs := toNat_le_counterMax ms }
  | setPrices reference estimated =>
    exact { h with
      referencePrice := toNat_le_counterMax reference
      estimatedPrice := toNat_le_counterMax estimated }
  | setStatuses statuses held =>
    have hcount : ∀ status, statuses.count status ≤ counterMax := fun _ =>
      List.count_le_length.trans held
    exact { h with green := hcount .green, yellow := hcount .yellow, red := hcount .red }

theorem inWords_foldl {t : Telemetry} (h : t.InWords) (updates : List Update) :
    (updates.foldl apply t).InWords := by
  induction updates generalizing t with
  | nil => exact h
  | cons update updates ih => exact ih (h.apply update)

theorem InWords.value_le {t : Telemetry} (h : t.InWords) {uptime : Nat} (hword : uptime ≤ counterMax) :
    ∀ f ∈ exportedFigures, f.value t uptime ≤ counterMax := by
  simp only [exportedFigures, List.forall_mem_cons]
  exact ⟨hword, h.cyclesRun, h.cyclesFailed, h.lastCycleMs, h.hostsCollected, h.hostFailures, h.green,
    h.yellow, h.red, h.referencePrice, h.estimatedPrice, nofun⟩

/-- A sample is read where the JSON export shows a number that a word holds: it has the name and the
labels of the figure, and the digits of the number are read as its value. -/
structure ExportedFigure.ReadAs (f : ExportedFigure) (t : Telemetry) (uptime : Nat) (s : Sample) :
    Prop where
  name : s.name = f.series
  labels : s.labels = ⟨f.labels⟩
  fits : f.value t uptime ≤ counterMax
  shown : (t.toJson uptime).at? f.path = some (.nat (f.value t uptime))
  read : readDouble? (Json.nat (f.value t uptime)).compact.toList = some s.value

theorem compact_nat (n : Nat) : (Json.nat n).compact.toList = decimal n := String.toList_ofList

/-- After any updates the metrics page is read as one sample for each figure of the JSON export, of
the same value. -/
theorem exports_agree (updates : List Update) (uptime : UInt64) :
    (exportedFigures.map fun f => (f.series, f.labels)).Nodup ∧
      List.Forall₂ (fun f s => f.ReadAs (run updates) uptime.toNat s) exportedFigures
        (parse ((run updates).toPage uptime.toNat)) := by
  refine ⟨by decide, ?_⟩
  rw [parse_toPage, List.forall₂_map_right_iff, List.forall₂_same]
  intro f hf
  have hwords : (run updates).InWords := inWords_foldl .zero updates
  exact {
    name := rfl
    labels := rfl
    fits := hwords.value_le (toNat_le_counterMax uptime) f hf
    shown := at?_toJson _ _ f hf
    read := by rw [compact_nat, readDouble?_decimal] }

end Fleet.Telemetry

end FleetHealth
