import FleetHealth.Exposition.Select
import FleetHealth.Proofs.Exposition.PageTexts
import Mathlib.Data.List.Basic

/-! # Selected series

What is selected of a page is the first sample that meets each request. So lines that no
request is about change nothing wherever they stand, and whatever comes after a page takes
nothing back that was selected of it.
-/
namespace FleetHealth.Exposition

open Text Number

variable {specs : List SeriesSpec} {spec : SeriesSpec} {samples : List Sample}

/-! ## Requests -/

/-- A request is met by a sample of its name that has each of its labels. -/
def SeriesSpec.MetBy (spec : SeriesSpec) (sample : Sample) : Prop :=
  sample.name = spec.sampleName ∧ ∀ l ∈ spec.labels, sample.labels.get? l.1 = some l.2

theorem SeriesSpec.isMet_iff {sample : Sample} : spec.isMet sample = true ↔ spec.MetBy sample := by
  simp [isMet, MetBy]

def FirstMet (spec : SeriesSpec) (samples : List Sample) (sample : Sample) : Prop :=
  spec.MetBy sample ∧ ∃ before after, samples = before ++ sample :: after ∧
    ∀ earlier ∈ before, ¬spec.MetBy earlier

theorem find?_isMet_iff {sample : Sample} :
    samples.find? spec.isMet = some sample ↔ FirstMet spec samples sample := by
  simp [List.find?_eq_some_iff_append, FirstMet, ← SeriesSpec.isMet_iff]

theorem firstMatch_eq_some_iff {found : Scraped} : firstMatch samples spec = some found ↔
    ∃ sample, FirstMet spec samples sample ∧ found = ⟨sample.value, sample.labels⟩ := by
  simp only [firstMatch, Option.map_eq_some_iff, find?_isMet_iff]
  exact exists_congr fun sample => and_congr_right fun _ => eq_comm

theorem firstMatch_isSome_iff :
    (firstMatch samples spec).isSome = true ↔ ∃ sample ∈ samples, spec.MetBy sample := by
  simp [firstMatch, SeriesSpec.isMet_iff]

theorem firstMatch_cons_of_not_metBy {sample : Sample} (h : ¬spec.MetBy sample) :
    firstMatch (sample :: samples) spec = firstMatch samples spec := by
  rw [firstMatch, List.find?_cons_of_neg (mt SeriesSpec.isMet_iff.mp h), firstMatch]

theorem firstMatch_cons_congr {samples' : List Sample} (sample : Sample)
    (h : firstMatch samples spec = firstMatch samples' spec) :
    firstMatch (sample :: samples) spec = firstMatch (sample :: samples') spec := by
  by_cases hmet : spec.MetBy sample
  · have hfirst := SeriesSpec.isMet_iff.mpr hmet
    rw [firstMatch, List.find?_cons_of_pos hfirst, firstMatch, List.find?_cons_of_pos hfirst]
  · rw [firstMatch_cons_of_not_metBy hmet, firstMatch_cons_of_not_metBy hmet, h]

/-- What is met already stays met by the same sample. -/
theorem firstMatch_append {found : Scraped} (later : List Sample)
    (h : firstMatch samples spec = some found) : firstMatch (samples ++ later) spec = some found := by
  obtain ⟨sample, hfind, rfl⟩ := Option.map_eq_some_iff.mp h
  rw [firstMatch, List.find?_append, hfind]
  rfl

/-! ## Selections -/

theorem select_congr {samples' : List Sample}
    (h : ∀ spec ∈ specs, firstMatch samples spec = firstMatch samples' spec) :
    select samples specs = select samples' specs := by
  unfold select
  congr 1
  induction specs with
  | nil => rfl
  | cons spec specs ih =>
    rw [List.filterMap_cons, List.filterMap_cons, h spec List.mem_cons_self,
      ih fun other hother => h other (List.mem_cons_of_mem _ hother)]

/-- A name is looked up among the requests of that name. -/
theorem select_get?_eq (samples : List Sample) (specs : List SeriesSpec) (name : String) :
    (select samples specs).get? name =
      ((specs.filter (·.name = name)).filterMap (firstMatch samples)).getLast? := by
  have hentries : (specs.filterMap fun spec => (firstMatch samples spec).map fun s => (spec.name, s)).filter
      (·.1 = name) = ((specs.filter (·.name = name)).filterMap (firstMatch samples)).map (name, ·) := by
    induction specs with
    | nil => rfl
    | cons spec specs ih =>
      by_cases hname : spec.name = name
      · subst hname
        cases hmatch : firstMatch samples spec <;> simp [hmatch, ih]
      · cases hmatch : firstMatch samples spec <;> simp [hmatch, hname, ih]
  rw [select, Keyed.get?_ofEntries, hentries, List.getLast?_map, Option.map_map]
  exact Option.map_id'

theorem filter_name (distinct : (specs.map (·.name)).Nodup) (hspec : spec ∈ specs) :
    specs.filter (·.name = spec.name) = [spec] := by
  induction specs with
  | nil => cases hspec
  | cons first specs ih =>
    obtain ⟨hfirst, hrest⟩ := List.nodup_cons.mp distinct
    rcases List.mem_cons.mp hspec with rfl | hspec
    · have hnone : specs.filter (·.name = spec.name) = [] := by
        rw [List.filter_eq_nil_iff]
        intro other hother hname
        exact hfirst (List.mem_map.mpr ⟨other, hother, of_decide_eq_true hname⟩)
      rw [List.filter_cons_of_pos (by simp), hnone]
    · have hname : first.name ≠ spec.name := fun hname =>
        hfirst (List.mem_map.mpr ⟨spec, hspec, hname.symm⟩)
      rw [List.filter_cons_of_neg (by simpa using hname), ih hrest hspec]

/-- With distinct names each request is answered under its own. -/
theorem select_get? (distinct : (specs.map (·.name)).Nodup) (hspec : spec ∈ specs) (samples : List Sample) :
    (select samples specs).get? spec.name = firstMatch samples spec := by
  rw [select_get?_eq, filter_name distinct hspec]
  cases hmatch : firstMatch samples spec <;> simp [hmatch]

theorem name_mem_of_select_get? {name : String} {found : Scraped}
    (h : (select samples specs).get? name = some found) : ∃ spec ∈ specs, spec.name = name := by
  rw [select_get?_eq] at h
  obtain ⟨spec, hspec, -⟩ := List.mem_filterMap.mp (List.mem_of_getLast? h)
  obtain ⟨hmem, hname⟩ := List.mem_filter.mp hspec
  exact ⟨spec, hmem, of_decide_eq_true hname⟩

/-! ## Lines that nobody asks for -/

/-- The line is no sample, or one of a name that no request reads. -/
def Foreign (specs : List SeriesSpec) (line : List Char) : Prop :=
  ∀ sample, lineSample? line = some sample → ∀ spec ∈ specs, sample.name ≠ spec.sampleName

instance (specs : List SeriesSpec) (line : List Char) : Decidable (Foreign specs line) :=
  inferInstanceAs (Decidable (∀ sample, lineSample? line = some sample →
    ∀ spec ∈ specs, sample.name ≠ spec.sampleName))

/-- Lines with others of a kind put before, between and behind them. -/
inductive Interspersed (kind : List Char → Prop) : List (List Char) → List (List Char) → Prop
  | nil : Interspersed kind [] []
  | keep {line : List Char} {ls ls' : List (List Char)} (rest : Interspersed kind ls ls') :
      Interspersed kind (line :: ls) (line :: ls')
  | put {line : List Char} {ls ls' : List (List Char)} (other : kind line)
      (rest : Interspersed kind ls ls') : Interspersed kind ls (line :: ls')

theorem Interspersed.firstMatch {ls ls' : List (List Char)} (h : Interspersed (Foreign specs) ls ls')
    (hspec : spec ∈ specs) : Exposition.firstMatch (ls'.filterMap lineSample?) spec =
      Exposition.firstMatch (ls.filterMap lineSample?) spec := by
  induction h with
  | nil => rfl
  | @keep line ls ls' rest ih =>
    cases hline : lineSample? line with
    | none => rw [List.filterMap_cons_none hline, List.filterMap_cons_none hline, ih]
    | some sample =>
      rw [List.filterMap_cons_some hline, List.filterMap_cons_some hline, firstMatch_cons_congr sample ih]
  | @put line ls ls' other rest ih =>
    cases hline : lineSample? line with
    | none => rw [List.filterMap_cons_none hline, ih]
    | some sample =>
      have hmet : ¬spec.MetBy sample := fun hmet => other sample hline spec hspec hmet.1
      rw [List.filterMap_cons_some hline, firstMatch_cons_of_not_metBy hmet, ih]

/-- Foreign lines among the lines of a page change nothing. -/
theorem select_interspersed {body body' : String}
    (h : Interspersed (Foreign specs) (lines body.toList) (lines body'.toList)) :
    select (parse body') specs = select (parse body) specs :=
  select_congr fun _ hspec => h.firstMatch hspec

/-! ## Lines put into a text -/

/-- No line is begun at the end of the text. -/
def AtLineStart (text : String) : Prop := text = "" ∨ ∃ front, text = front ++ "\n"

theorem lines_join (front back : List Char) :
    lines (front ++ '\n' :: back) = (splitAt '\n' front).map dropReturn ++ lines back := by
  have hback := splitAt_ne_nil '\n' back
  unfold lines
  rw [splitAt_join]
  dsimp only
  rw [List.dropLast_append_of_ne_nil hback, List.getLast?_append_of_ne_nil _ hback, List.map_append,
    List.append_assoc]

/-- The lines of a text that goes on where a line begins are its own and those that follow. -/
theorem AtLineStart.lines_append {front : String} (h : AtLineStart front) (back : String) :
    lines (front ++ back).toList = lines front.toList ++ lines back.toList := by
  rcases h with rfl | ⟨front, rfl⟩
  · simp [lines, splitAt]
  · have hempty : lines [] = [] := rfl
    simp [lines_join, hempty]

theorem Interspersed.refl {kind : List Char → Prop} (ls : List (List Char)) : Interspersed kind ls ls := by
  induction ls with
  | nil => exact .nil
  | cons line ls ih => exact ih.keep

theorem Interspersed.inserted {kind : List Char → Prop} {front added back : List (List Char)}
    (h : ∀ line ∈ added, kind line) : Interspersed kind (front ++ back) (front ++ (added ++ back)) := by
  induction front with
  | nil =>
    induction added with
    | nil => exact .refl back
    | cons line added ih => exact (ih fun l hl => h l (List.mem_cons_of_mem _ hl)).put (h line List.mem_cons_self)
  | cons line front ih => exact ih.keep

def GoesOn (body body' : String) : Prop :=
  ∃ more, body' = body ++ "\n" ++ more ∨ AtLineStart body ∧ body' = body ++ more

theorem GoesOn.parse {body body' : String} (h : GoesOn body body') :
    ∃ later, Exposition.parse body' = Exposition.parse body ++ later := by
  obtain ⟨more, rfl | ⟨hstart, rfl⟩⟩ := h
  · exact ⟨Exposition.parse more, by simp [parse_eq_pieces, splitAt_join]⟩
  · exact ⟨Exposition.parse more, by simp only [Exposition.parse, hstart.lines_append, List.filterMap_append]⟩

/-! ## Main result -/

/-- For a request there is an entry under its name exactly if some sample meets it, and that is
the first one that does; no other names have entries. Foreign lines anywhere among the lines
change nothing, so neither does a block of them put in where a line begins, and further lines
leave every entry as it is. -/
theorem selection_is_stable (distinct : (specs.map (·.name)).Nodup) (body : String) :
    (∀ spec ∈ specs,
      ((select (parse body) specs).get? spec.name).isSome = true ↔ ∃ sample ∈ parse body, spec.MetBy sample) ∧
    (∀ spec ∈ specs, ∀ found, (select (parse body) specs).get? spec.name = some found ↔
      ∃ sample, FirstMet spec (parse body) sample ∧ found = ⟨sample.value, sample.labels⟩) ∧
    (∀ name found, (select (parse body) specs).get? name = some found → ∃ spec ∈ specs, spec.name = name) ∧
    (∀ body', Interspersed (Foreign specs) (lines body.toList) (lines body'.toList) →
      select (parse body') specs = select (parse body) specs) ∧
    (∀ front added back, body = front ++ back → AtLineStart front → AtLineStart added →
      (∀ line ∈ lines added.toList, Foreign specs line) →
      select (parse (front ++ added ++ back)) specs = select (parse body) specs) ∧
    ∀ body', GoesOn body body' → ∀ name found, (select (parse body) specs).get? name = some found →
      (select (parse body') specs).get? name = some found := by
  refine ⟨fun spec hspec => ?_, fun spec hspec found => ?_, fun name found => name_mem_of_select_get?,
    fun body' => select_interspersed, ?_, fun body' hmore name found hfound => ?_⟩
  · rw [select_get? distinct hspec, firstMatch_isSome_iff]
  · rw [select_get? distinct hspec, firstMatch_eq_some_iff]
  · rintro front added back rfl hfront hadded hforeign
    refine select_interspersed ?_
    rw [String.append_assoc, hfront.lines_append, hfront.lines_append, hadded.lines_append]
    exact .inserted hforeign
  · obtain ⟨spec, hspec, rfl⟩ := name_mem_of_select_get? hfound
    rw [select_get? distinct hspec] at hfound ⊢
    obtain ⟨later, hlater⟩ := hmore.parse
    rw [hlater]
    exact firstMatch_append later hfound

def roundSpecs : List SeriesSpec :=
  [⟨"current_round", .gauge, [("source", "own")]⟩, ⟨"consensus_commit_latency", .summary, []⟩]

def peerRound : String := "current_round\x7bsource=\"peer\"\x7d 40"

def ownRound : String := "current_round\x7bsource=\"own\"\x7d 42"

/-- A comment, a line that breaks off and a sample that has the name of a summary are foreign. A
later sample of the own round does not take the place of the first. -/
theorem own_round_is_kept : (roundSpecs.map (·.name)).Nodup ∧
    select (parse ("# HELP\r\n" ++ peerRound ++ "\nup\x7b\n" ++ ownRound ++
      "\nconsensus_commit_latency 3")) roundSpecs =
        select (parse (peerRound ++ "\n" ++ ownRound)) roundSpecs ∧
    (select (parse (peerRound ++ "\n" ++ ownRound ++ "\n" ++
      "current_round\x7bsource=\"own\"\x7d 50")) roundSpecs).get? "current_round" =
        some ⟨.ofNat 42, ⟨[("source", "own")]⟩⟩ := by
  have hdistinct : (roundSpecs.map (·.name)).Nodup := by decide
  obtain ⟨-, -, -, hforeign, -, hmore⟩ := selection_is_stable hdistinct (peerRound ++ "\n" ++ ownRound)
  refine ⟨hdistinct, hforeign _ ?_, hmore _ ⟨_, .inl rfl⟩ _ _ (by decide +kernel)⟩
  have hlines : lines (peerRound ++ "\n" ++ ownRound).toList = [peerRound.toList, ownRound.toList] := by
    decide +kernel
  have hmixed : lines ("# HELP\r\n" ++ peerRound ++ "\nup\x7b\n" ++ ownRound ++
      "\nconsensus_commit_latency 3").toList = ["# HELP".toList, peerRound.toList, "up\x7b".toList,
        ownRound.toList, "consensus_commit_latency 3".toList] := by
    decide +kernel
  rw [hlines, hmixed]
  exact .put (by decide +kernel) (.keep (.put (by decide +kernel) (.keep (.put (by decide +kernel) .nil))))

end FleetHealth.Exposition
