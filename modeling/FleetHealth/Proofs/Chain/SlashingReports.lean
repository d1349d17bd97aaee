import FleetHealth.Chain.Reports
import FleetHealth.Proofs.Chain.Culprits
import FleetHealth.Proofs.Chain.EpochTiming
import FleetHealth.Proofs.Keyed

/-! # Power behind reports

Each record of a snapshot becomes one report, with the exact power of its reporters and the
share of the quorum that they make up. The powers are added up in a counter, and where a total
does not fit into it there are no reports at all, nor an error that says so.
-/
namespace FleetHealth.Chain

open Number Text

/-- The active validator that counts for an address: of several with one address the last. -/
def holder? (vs : List Validator) (address : String) : Option Validator :=
  (vs.filter (·.address = address)).getLast?

/-- The power that stands behind an address; nobody active has none. -/
inductive HoldsPower (vs : List Validator) (address : String) : Nat → Prop
  | active {v : Validator} {power : Nat} (holds : holder? vs address = some v)
      (read : v.power = .ok power) : HoldsPower vs address power
  | inactive (vacant : holder? vs address = none) : HoldsPower vs address 0

/-- The exact power of reporters together; one that is listed twice counts twice. -/
def HaveTogether (vs : List Validator) (reporters : List String) (total : Nat) : Prop :=
  ∃ shares, List.Forall₂ (HoldsPower vs) reporters shares ∧ total = sumOf shares

def Overflows (s : SystemState) (record : String × List String) : Prop :=
  ∃ total, HaveTogether s.activeValidators record.2 total ∧ counterMax < total

/-- The report that a record leads to, when its reporters have some total power. -/
structure ReportedFrom (s : SystemState) (record : String × List String) (total : Nat)
    (report : ValidatorReport) : Prop where
  address : report.address = record.1
  reporters : report.reporters = record.2
  name : report.name =
    ((s.activeValidators.find? (·.address = record.1)).map (·.name)).getD ""
  power : report.reportersPower = total
  percentage : report.slashingPercentage = min 100 (100 * total / quorum)

/-! ## Powers by address -/

def TellsPowers (vs : List Validator) (held : Keyed Nat) : Prop :=
  ∀ address, Option.Rel (fun v power => v.power = .ok power) (holder? vs address)
    (held.get? address)

section Powers

variable {vs : List Validator} {held : Keyed Nat}

theorem addressAndPower_eq_ok {v : Validator} {entry : String × Nat} :
    addressAndPower v = .ok entry ↔ entry.1 = v.address ∧ v.power = .ok entry.2 := by
  obtain ⟨address, power⟩ := entry
  unfold addressAndPower
  cases v.power with
  | error e => simp [Except.map]
  | ok n => simp [Except.map, eq_comm]

theorem failsOn_addressAndPower (vs : List Validator) :
    FailsOn counterMax "votingPower" (·.votingPower) vs addressAndPower := by
  have hpower := FailsOn.readField counterMax "votingPower" (·.votingPower) vs
  constructor
  · intro v hv hread
    obtain ⟨n, hn⟩ := hpower.ok v hv hread
    exact ⟨(v.address, n), addressAndPower_eq_ok.mpr ⟨rfl, hn⟩⟩
  · intro v hv hunread
    have herror : v.power = _ := hpower.error v hv hunread
    rw [addressAndPower, herror]
    rfl

theorem powers_of_fault {e : StateError} (h : powerFault? vs = some e) : powers vs = .error e := by
  rw [powers, (failsOn_addressAndPower vs).mapM_error h]
  rfl

theorem tellsPowers_ofEntries {entries : List (String × Nat)}
    (h : List.Forall₂ (fun v entry => addressAndPower v = .ok entry) vs entries) :
    TellsPowers vs (.ofEntries entries) := by
  intro address
  rw [holder?, Keyed.get?_ofEntries]
  induction h with
  | nil => exact .none
  | @cons v entry vs entries hentry _ ih =>
    obtain ⟨hname, hpower⟩ := addressAndPower_eq_ok.mp hentry
    by_cases haddress : v.address = address
    · rw [List.filter_cons_of_pos (by simpa using haddress),
        List.filter_cons_of_pos (by simpa [hname] using haddress), List.getLast?_cons,
        List.getLast?_cons]
      -- an earlier holder counts only if no later one has the address
      generalize (vs.filter (·.address = address)).getLast? = later at ih ⊢
      generalize (entries.filter (·.1 = address)).getLast? = laterEntry at ih ⊢
      cases laterEntry with
      | none => cases ih; exact .some hpower
      | some e => cases ih with | some hlater => exact .some hlater
    · rw [List.filter_cons_of_neg (by simpa using haddress),
        List.filter_cons_of_neg (by simpa [hname] using haddress)]
      exact ih

theorem exists_powers (h : powerFault? vs = none) :
    ∃ held, powers vs = .ok held ∧ TellsPowers vs held := by
  obtain ⟨entries, hentries⟩ := (failsOn_addressAndPower vs).mapM_ok h
  refine ⟨.ofEntries entries, ?_, tellsPowers_ofEntries (mapM_eq_ok.mp hentries)⟩
  rw [powers, hentries]
  rfl

theorem TellsPowers.holdsPower (h : TellsPowers vs held) (address : String) :
    HoldsPower vs address ((held.get? address).getD 0) := by
  have haddress := h address
  generalize hholder : holder? vs address = holder at haddress
  generalize held.get? address = power at haddress ⊢
  cases haddress with
  | none => exact .inactive hholder
  | some hpower => exact .active hholder hpower

/-- Leaving out those without power does not change the sum. -/
theorem sumOf_filterMap {α : Type} (f : α → Option Nat) (xs : List α) :
    sumOf (xs.filterMap f) = sumOf (xs.map fun x => (f x).getD 0) := by
  induction xs with
  | nil => rfl
  | cons x rest ih =>
    have hcons : ∀ n ns, sumOf (n :: ns) = n + sumOf ns := fun _ _ => rfl
    cases hx : f x with
    | none =>
      rw [List.filterMap_cons_none hx, List.map_cons, hcons, hx, Option.getD_none, ih, Nat.zero_add]
    | some n =>
      rw [List.filterMap_cons_some hx, List.map_cons, hcons, hcons, hx, Option.getD_some, ih]

theorem TellsPowers.haveTogether (h : TellsPowers vs held) (reporters : List String) :
    HaveTogether vs reporters (sumOf (reporters.filterMap held.get?)) := by
  refine ⟨reporters.map fun r => (held.get? r).getD 0, ?_, sumOf_filterMap ..⟩
  rw [List.forall₂_map_right_iff, List.forall₂_same]
  exact fun r _ => h.holdsPower r

theorem HoldsPower.unique {address : String} {power power' : Nat} (h : HoldsPower vs address power)
    (h' : HoldsPower vs address power') : power = power' := by
  cases h with
  | active holds read =>
    cases h' with
    | active holds' read' =>
      cases holds.symm.trans holds'
      exact Except.ok.inj (read.symm.trans read')
    | inactive vacant => cases holds.symm.trans vacant
  | inactive vacant =>
    cases h' with
    | active holds' read' => cases vacant.symm.trans holds'
    | inactive => rfl

theorem HaveTogether.unique {reporters : List String} {total total' : Nat}
    (h : HaveTogether vs reporters total) (h' : HaveTogether vs reporters total') :
    total = total' := by
  obtain ⟨shares, hshares, rfl⟩ := h
  obtain ⟨shares', hshares', rfl⟩ := h'
  have hunique : Relator.RightUnique (HoldsPower vs) := fun _ _ _ h h' => h.unique h'
  rw [List.right_unique_forall₂' hunique hshares hshares']

end Powers

/-! ## Reports -/

/-- That a product is cut off in its word does not show under the cap of 100. -/
theorem slashingPercentage_eq (power : Nat) :
    slashingPercentage power = min 100 (100 * power / quorum) := by
  simp only [slashingPercentage, capCounter, counterMax, quorum]
  omega

theorem SystemState.report_eq (s : SystemState) (held : Keyed Nat) (record : String × List String) :
    s.report held record =
      let total := sumOf (record.2.filterMap held.get?)
      if total ≤ counterMax then
        .ok ⟨record.1, s.nameOf record.1, record.2, total, slashingPercentage total⟩
      else .error .overflow := by
  rw [report, reportersPower, sumCounters?_eq]
  dsimp only
  split_ifs <;> rfl

section Records

variable {s : SystemState} {held : Keyed Nat} {record : String × List String}

theorem report_eq_overflow_iff (h : TellsPowers s.activeValidators held) :
    s.report held record = .error .overflow ↔ Overflows s record := by
  have htogether := h.haveTogether record.2
  rw [SystemState.report_eq]
  dsimp only
  split
  · next hfits =>
    refine ⟨nofun, ?_⟩
    rintro ⟨total, htotal, hover⟩
    rw [htotal.unique htogether] at hover
    exact absurd hfits (Nat.not_le_of_lt hover)
  · next hover => exact ⟨fun _ => ⟨_, htogether, Nat.lt_of_not_le hover⟩, fun _ => rfl⟩

theorem report_fault {fault : ReportFault} (h : s.report held record = .error fault) :
    fault = .overflow := by
  rw [SystemState.report_eq] at h
  dsimp only at h
  split at h
  · cases h
  · exact (Except.error.inj h).symm

theorem reportedFrom_report (h : TellsPowers s.activeValidators held) {report : ValidatorReport}
    (hreport : s.report held record = .ok report) :
    ∃ total, HaveTogether s.activeValidators record.2 total ∧ ReportedFrom s record total report := by
  rw [SystemState.report_eq] at hreport
  dsimp only at hreport
  split at hreport
  · cases hreport
    refine ⟨_, h.haveTogether record.2, rfl, rfl, ?_, rfl, slashingPercentage_eq _⟩
    simp only [SystemState.nameOf]
    cases s.activeValidators.find? (·.address = record.1) <;> rfl
  · cases hreport

end Records

/-- Reports are refused for the first unread power. Otherwise there is one for each record, with
the exact total of its reporters' powers and its share of the quorum, unless some total
overflows; then there is nothing. -/
theorem reports_exact_unless_overflowing (s : SystemState) :
    (∀ e, s.reports = .error (.refused e) ↔ powerFault? s.activeValidators = some e) ∧
    (s.reports = .error .overflow ↔
      powerFault? s.activeValidators = none ∧ ∃ record ∈ s.reportRecords, Overflows s record) ∧
    (powerFault? s.activeValidators = none → (∀ record ∈ s.reportRecords, ¬Overflows s record) →
      ∃ reports, s.reports = .ok reports ∧
        List.Forall₂ (fun record report => ∃ total,
          HaveTogether s.activeValidators record.2 total ∧ ReportedFrom s record total report)
          s.reportRecords reports) := by
  cases hfault : powerFault? s.activeValidators with
  | some first =>
    have hreports : s.reports = .error (.refused first) := by
      rw [SystemState.reports, powers_of_fault hfault]
      rfl
    rw [hreports]
    exact ⟨fun e => by simp, by simp, nofun⟩
  | none =>
    obtain ⟨held, hheld, htells⟩ := exists_powers hfault
    have hreports : s.reports = s.reportRecords.mapM (s.report held) := by
      rw [SystemState.reports, hheld]
      rfl
    rw [hreports]
    by_cases hover : ∃ record ∈ s.reportRecords, Overflows s record
    · obtain ⟨record, hrecord, hexceeds⟩ := hover
      have hoverflow : s.reportRecords.mapM (s.report held) = .error .overflow :=
        (mapM_eq_error_iff fun _ _ => report_fault).mpr
          ⟨record, hrecord, (report_eq_overflow_iff htells).mpr hexceeds⟩
      rw [hoverflow]
      exact ⟨fun e => by simp, by simpa using ⟨_, _, hrecord, hexceeds⟩,
        fun _ hfits => absurd hexceeds (hfits record hrecord)⟩
    · have hfit : ∀ record ∈ s.reportRecords, ∃ report, s.report held record = .ok report := by
        intro record hrecord
        cases hreport : s.report held record with
        | ok report => exact ⟨report, rfl⟩
        | error fault =>
          rw [report_fault hreport, report_eq_overflow_iff htells] at hreport
          exact absurd ⟨record, hrecord, hreport⟩ hover
      obtain ⟨reports, hall⟩ := exists_mapM_eq_ok hfit
      rw [hall]
      refine ⟨fun e => by simp, by simpa using hover, fun _ _ => ⟨reports, rfl, ?_⟩⟩
      exact (mapM_eq_ok.mp hall).imp fun _ _ => reportedFrom_report htells

def powered (address name power : String) : Validator :=
  ⟨address, name, power, "", "", "", "", "", "", "", "", ""⟩

/-- An address that is active twice, a reporter listed twice, and one that is not active. -/
def reportedState : SystemState :=
  { SystemState.blank with
    activeValidators :=
      [powered "0xa" "alpha" "9000", powered "0xb" "beta" "1000", powered "0xa" "" "1500"]
    reportRecords := [("0xa", ["0xb", "0xb", "0xa"]), ("0xc", ["0xgone"])] }

def alphaReport : ValidatorReport := ⟨"0xa", "alpha", ["0xb", "0xb", "0xa"], 3500, 52⟩

theorem reportedState_reports : powerFault? reportedState.activeValidators = none ∧
    (∀ record ∈ reportedState.reportRecords, ¬Overflows reportedState record) ∧
    reportedState.reports = .ok [alphaReport, ⟨"0xc", "", ["0xgone"], 0, 0⟩] ∧
    HaveTogether reportedState.activeValidators ["0xb", "0xb", "0xa"] 3500 ∧
    ReportedFrom reportedState ("0xa", ["0xb", "0xb", "0xa"]) 3500 alphaReport := by
  have hfault : powerFault? reportedState.activeValidators = none := by decide
  have hreports : reportedState.reports = .ok [alphaReport, ⟨"0xc", "", ["0xgone"], 0, 0⟩] := by
    decide
  obtain ⟨-, hover, hexact⟩ := reports_exact_unless_overflowing reportedState
  have hfits : ∀ record ∈ reportedState.reportRecords, ¬Overflows reportedState record := by
    intro record hrecord hexceeds
    rw [hover.mpr ⟨hfault, record, hrecord, hexceeds⟩] at hreports
    cases hreports
  obtain ⟨reports, hsome, hall⟩ := hexact hfault hfits
  rw [hreports, Except.ok.injEq] at hsome
  subst hsome
  obtain ⟨⟨total, htogether, hreport⟩, -⟩ := List.forall₂_cons.mp hall
  obtain rfl : 3500 = total := hreport.power
  exact ⟨hfault, hfits, hreports, htogether, hreport⟩

def mightyState : SystemState :=
  { SystemState.blank with
    activeValidators := [powered "0xa" "alpha" "18446744073709551615", powered "0xb" "beta" "1"]
    reportRecords := [("0xc", ["0xa", "0xb"])] }

/-- All powers are read, and the two have the quorum many times over; but there is no report. -/
theorem mighty_reporters_overflow :
    mightyState.reports = .error .overflow ∧ powerFault? mightyState.activeValidators = none ∧
    HaveTogether mightyState.activeValidators ["0xa", "0xb"] (2 ^ 64) ∧
    min 100 (100 * 2 ^ 64 / quorum) = 100 := by
  refine ⟨by decide, by decide, ⟨[18446744073709551615, 1], ?_, by decide⟩, by decide⟩
  exact .cons (.active (v := powered "0xa" "alpha" "18446744073709551615") (by decide) (by decide))
    (.cons (.active (v := powered "0xb" "beta" "1") (by decide) (by decide)) .nil)

end FleetHealth.Chain
