import FleetHealth.Proofs.Toml.LineTexts

/-! # Documents put together

Sections are written one after the other, so whatever a line changes stands at the end of
the document: the table that settings go to is the last one, or the last of the last list.
Keys are told apart, and therefore every change is an addition.
-/
namespace FleetHealth.Toml

/-! ## The end of a table -/

def keysOf {α : Type} (entries : List (String × α)) : List String := entries.map (·.1)

theorem entry?_append {key : String} {front : Entries} (back : Entries) (h : key ∉ keysOf front) :
    entry? key (front ++ back) = entry? key back := by
  induction front with
  | nil => rfl
  | cons e front ih =>
    obtain ⟨hfirst, hrest⟩ := not_or.mp fun hmem => h (List.mem_cons.mpr hmem)
    rw [List.cons_append, entry?, if_neg (Ne.symm hfirst), ih hrest]

theorem setEntry_append {key : String} {front : Entries} (node : Node) (back : Entries)
    (h : key ∉ keysOf front) : setEntry key node (front ++ back) = front ++ setEntry key node back := by
  induction front with
  | nil => rfl
  | cons e front ih =>
    obtain ⟨hfirst, hrest⟩ := not_or.mp fun hmem => h (List.mem_cons.mpr hmem)
    rw [List.cons_append, setEntry, if_neg (Ne.symm hfirst), ih hrest, List.cons_append]

theorem entry?_of_notMem {key : String} {entries : Entries} (h : key ∉ keysOf entries) :
    entry? key entries = none := by
  have hnone := entry?_append [] h
  rwa [List.append_nil] at hnone

theorem setEntry_of_notMem {key : String} {entries : Entries} (node : Node)
    (h : key ∉ keysOf entries) : setEntry key node entries = entries ++ [(key, node)] := by
  have hend := setEntry_append node [] h
  rwa [List.append_nil] at hend

/-- What a change at the current path does, as a change to the table there. -/
def Focuses (current : List String) (whole : Entries → Entries) : Prop :=
  ∀ change inner, changeAt false change current .stated (whole inner) =
    (change .stated inner).map whole

theorem Focuses.root : Focuses [] id := by
  intro change inner
  simp [changeAt]

theorem Focuses.table {key : String} {front : Entries} (h : key ∉ keysOf front) :
    Focuses [key] fun inner => front ++ [(key, .table .stated inner)] := by
  intro change inner
  simp [changeAt, entry?_append _ h, setEntry_append _ _ h, entry?, setEntry]

theorem Focuses.element {key : String} {front : Entries} (h : key ∉ keysOf front)
    (done : List Entries) : Focuses [key] fun inner => front ++ [(key, .tables (done ++ [inner]))] := by
  intro change inner
  simp [changeAt, entry?_append _ h, setEntry_append _ _ h, entry?, setEntry]

/-! ## Settings under a header -/

def recordEntries (settings : List (String × Scalar)) : Entries :=
  settings.map fun s => (s.1, .value s.2.toJson)

theorem putValue_new {key : String} {entries : Entries} (v : Json) (h : key ∉ keysOf entries) :
    putValue [] key v .stated entries = some (entries ++ [(key, .value v)]) := by
  simp [putValue, changeAt, entry?_of_notMem h, setEntry_of_notMem _ h]

/-- Settings are added to the current table in their order. -/
theorem settings_foldlM {current : List String} {whole : Entries → Entries}
    (hfocus : Focuses current whole) (inner : Entries) {settings : List (String × Scalar)}
    (h : (keysOf inner ++ keysOf settings).Nodup) :
    (settings.map settingStatement).foldlM Progress.step ⟨whole inner, current⟩ =
      some ⟨whole (inner ++ recordEntries settings), current⟩ := by
  induction settings generalizing inner with
  | nil => simp [recordEntries]
  | cons s settings ih =>
    have hmoved : keysOf (inner ++ [(s.1, Node.value s.2.toJson)]) ++ keysOf settings =
        keysOf inner ++ keysOf (s :: settings) := by simp [keysOf]
    have hnew : s.1 ∉ keysOf inner := by
      intro hmem
      exact (List.nodup_append.mp h).2.2 s.1 hmem s.1 List.mem_cons_self rfl
    have hstep : Progress.step ⟨whole inner, current⟩ (settingStatement s) =
        some ⟨whole (inner ++ [(s.1, .value s.2.toJson)]), current⟩ := by
      simp [Progress.step, settingStatement, hfocus (putValue [] s.1 s.2.toJson) inner,
        putValue_new _ hnew]
    rw [List.map_cons, List.foldlM_cons, hstep, Option.bind_eq_bind, Option.bind_some,
      ih _ (hmoved ▸ h)]
    simp [recordEntries]

/-- What some statements make of the entries that are there, whichever table is the current one. -/
def Makes (statements : List Statement) (before after : Entries) : Prop :=
  ∀ current, ∃ current', statements.foldlM Progress.step ⟨before, current⟩ = some ⟨after, current'⟩

theorem Makes.nil (entries : Entries) : Makes [] entries entries := fun current => ⟨current, rfl⟩

theorem Makes.append {first second : List Statement} {before between after : Entries}
    (hfirst : Makes first before between) (hsecond : Makes second between after) :
    Makes (first ++ second) before after := by
  intro current
  obtain ⟨current, hrun⟩ := hfirst current
  obtain ⟨current', hrest⟩ := hsecond current
  refine ⟨current', ?_⟩
  rw [List.foldlM_append, hrun]
  exact hrest

theorem makes_table {key : String} {entries : Entries} {settings : List (String × Scalar)}
    (hnew : key ∉ keysOf entries) (h : (keysOf settings).Nodup) :
    Makes (Block.statements ⟨.table key, settings⟩) entries
      (entries ++ [(key, .table .stated (recordEntries settings))]) := by
  intro current
  refine ⟨[key], ?_⟩
  have hheader : Progress.step ⟨entries, current⟩ (.header ⟨[], key⟩) =
      some ⟨entries ++ [(key, .table .stated [])], [key]⟩ := by
    simp [Progress.step, putTable, changeAt, entry?_of_notMem hnew, setEntry_of_notMem _ hnew, Path.all]
  have hsettings := settings_foldlM (Focuses.table hnew) [] h
  simp only [Block.statements, Heading.statements, List.cons_append, List.nil_append,
    List.foldlM_cons, hheader, Option.bind_eq_bind, Option.bind_some]
  exact hsettings

def listEntry (key : String) (elements : List Entries) : Entries :=
  if elements = [] then [] else [(key, .tables elements)]

theorem makes_element {key : String} {front : Entries} (done : List Entries)
    {settings : List (String × Scalar)} (hnew : key ∉ keysOf front) (h : (keysOf settings).Nodup) :
    Makes (Block.statements ⟨.element key, settings⟩) (front ++ listEntry key done)
      (front ++ listEntry key (done ++ [recordEntries settings])) := by
  intro current
  refine ⟨[key], ?_⟩
  have hheader : Progress.step ⟨front ++ listEntry key done, current⟩ (.listHeader ⟨[], key⟩) =
      some ⟨front ++ [(key, .tables (done ++ [[]]))], [key]⟩ := by
    -- the first header of a key makes the list, the others find it
    by_cases hdone : done = []
    · simp [Progress.step, pushTable, changeAt, listEntry, hdone, entry?_of_notMem hnew,
        setEntry_of_notMem _ hnew, Path.all]
    · simp [Progress.step, pushTable, changeAt, listEntry, hdone, entry?_append _ hnew,
        setEntry_append _ _ hnew, entry?, setEntry, Path.all]
  have hsettings := settings_foldlM (Focuses.element hnew done) [] h
  simp only [Block.statements, Heading.statements, List.cons_append, List.nil_append,
    List.foldlM_cons, hheader, Option.bind_eq_bind, Option.bind_some]
  simpa [listEntry, recordEntries] using hsettings

theorem makes_elements {key : String} {front : Entries} (done : List Entries)
    {elements : List (List (String × Scalar))} (hnew : key ∉ keysOf front)
    (h : ∀ settings ∈ elements, (keysOf settings).Nodup) :
    Makes (elements.flatMap fun settings => Block.statements ⟨.element key, settings⟩)
      (front ++ listEntry key done) (front ++ listEntry key (done ++ elements.map recordEntries)) := by
  induction elements generalizing done with
  | nil => simpa using Makes.nil _
  | cons settings elements ih =>
    have hfirst := makes_element done hnew (h settings List.mem_cons_self)
    have hrest := ih (done ++ [recordEntries settings])
      fun s hs => h s (List.mem_cons_of_mem _ hs)
    simpa using hfirst.append hrest

/-- Parts that bring different keys are added one after the other. -/
theorem Makes.each {α : Type} {items : List α} {statements : α → List Statement} {added : α → Entries}
    {front : Entries} (hitem : ∀ x ∈ items, ∀ front, (keysOf (front ++ added x)).Nodup →
      Makes (statements x) front (front ++ added x))
    (h : (keysOf (front ++ items.flatMap added)).Nodup) :
    Makes (items.flatMap statements) front (front ++ items.flatMap added) := by
  induction items generalizing front with
  | nil => simpa using Makes.nil front
  | cons x items ih =>
    have hparts : front ++ (x :: items).flatMap added = front ++ added x ++ items.flatMap added := by
      simp
    rw [hparts] at h ⊢
    have hfront : (keysOf (front ++ added x)).Nodup := by
      rw [keysOf, List.map_append] at h
      exact (List.nodup_append.mp h).1
    have hfirst := hitem x List.mem_cons_self front hfront
    have hrest := ih (fun x hx => hitem x (List.mem_cons_of_mem _ hx)) h
    exact hfirst.append hrest

theorem notMem_of_nodup {key : String} {front : Entries} {node : Node}
    (h : (keysOf (front ++ [(key, node)])).Nodup) : key ∉ keysOf front := by
  rw [keysOf, List.map_append] at h
  exact fun hmem => (List.nodup_append.mp h).2.2 key hmem key List.mem_cons_self rfl

/-! ## Documents in sections -/

theorem entriesJson_eq (entries : Entries) :
    entriesJson entries = entries.map fun e => (e.1, e.2.toJson) := by
  induction entries with
  | nil => rfl
  | cons e entries ih => rw [entriesJson, ih, List.map_cons]

theorem entriesJson_append (front back : Entries) :
    entriesJson (front ++ back) = entriesJson front ++ entriesJson back := by
  simp [entriesJson_eq]

theorem elementsJson_eq (elements : List Entries) :
    elementsJson elements = elements.map fun entries => .object (entriesJson entries) := by
  induction elements with
  | nil => rfl
  | cons entries elements ih => rw [elementsJson, ih, List.map_cons]

theorem keysOf_entriesJson (entries : Entries) : keysOf (entriesJson entries) = keysOf entries := by
  simp [keysOf, entriesJson_eq]

def recordFields (settings : List (String × Scalar)) : List (String × Json) :=
  settings.map fun s => (s.1, s.2.toJson)

theorem entriesJson_record (settings : List (String × Scalar)) :
    entriesJson (recordEntries settings) = recordFields settings := by
  simp [entriesJson_eq, recordEntries, recordFields, Node.toJson]

/-- Plain settings, then tables, then lists of tables. -/
structure Outline where
  plain : List (String × Scalar)
  tables : List (String × List (String × Scalar))
  lists : List (String × List (List (String × Scalar)))

namespace Outline

def tableBlock (t : String × List (String × Scalar)) : Block := ⟨.table t.1, t.2⟩

def elementBlocks (t : String × List (List (String × Scalar))) : List Block :=
  t.2.map fun settings => ⟨.element t.1, settings⟩

def blocks (l : Outline) : List Block :=
  ⟨.root, l.plain⟩ :: (l.tables.map tableBlock ++ l.lists.flatMap elementBlocks)

def tableEntry (t : String × List (String × Scalar)) : Entries :=
  [(t.1, .table .stated (recordEntries t.2))]

def elementEntries (t : String × List (List (String × Scalar))) : Entries :=
  listEntry t.1 (t.2.map recordEntries)

def entries (l : Outline) : Entries :=
  recordEntries l.plain ++ l.tables.flatMap tableEntry ++ l.lists.flatMap elementEntries

def fields (l : Outline) : List (String × Json) :=
  recordFields l.plain ++ l.tables.map (fun t => (t.1, .object (recordFields t.2))) ++
    (l.lists.filter fun t => t.2 ≠ []).map fun t =>
      (t.1, .list (t.2.map fun settings => .object (recordFields settings)))

theorem entriesJson_entries (l : Outline) : entriesJson l.entries = l.fields := by
  have htables : entriesJson (l.tables.flatMap tableEntry) =
      l.tables.map fun t => (t.1, .object (recordFields t.2)) := by
    induction l.tables with
    | nil => rfl
    | cons t tables ih =>
      rw [List.flatMap_cons, tableEntry, List.singleton_append, entriesJson, ih, Node.toJson,
        entriesJson_record, List.map_cons]
  have hlists : entriesJson (l.lists.flatMap elementEntries) =
      (l.lists.filter fun t => t.2 ≠ []).map fun t =>
        (t.1, .list (t.2.map fun settings => .object (recordFields settings))) := by
    induction l.lists with
    | nil => rfl
    | cons t lists ih =>
      by_cases hempty : t.2 = []
      · simpa [elementEntries, listEntry, hempty] using ih
      · simp [elementEntries, listEntry, hempty, entriesJson, Node.toJson, elementsJson_eq,
          entriesJson_record, ih]
  rw [entries, entriesJson_append, entriesJson_append, entriesJson_record, htables, hlists, fields]

structure WellNamed (l : Outline) : Prop where
  bare : ∀ b ∈ l.blocks, b.Bare
  top : (keysOf l.fields).Nodup
  inner : ∀ b ∈ l.blocks, (keysOf b.settings).Nodup

variable {l : Outline}

theorem WellNamed.entries (h : l.WellNamed) : (keysOf l.entries).Nodup := by
  rw [← keysOf_entriesJson, entriesJson_entries]
  exact h.top

theorem WellNamed.makes_tables (h : l.WellNamed) :
    Makes (l.tables.flatMap fun t => (tableBlock t).statements) (recordEntries l.plain)
      (recordEntries l.plain ++ l.tables.flatMap tableEntry) := by
  refine Makes.each (fun t ht front hfront => makes_table (notMem_of_nodup hfront) ?_) ?_
  · exact h.inner (tableBlock t) (by simp [blocks, List.mem_map_of_mem ht])
  · have htop := h.entries
    rw [Outline.entries, keysOf, List.map_append] at htop
    exact (List.nodup_append.mp htop).1

theorem WellNamed.makes_lists (h : l.WellNamed) :
    Makes (l.lists.flatMap fun t => (elementBlocks t).flatMap Block.statements)
      (recordEntries l.plain ++ l.tables.flatMap tableEntry) l.entries := by
  refine Makes.each (fun t ht front hfront => ?_) h.entries
  have hsettings : ∀ settings ∈ t.2, (keysOf settings).Nodup := by
    intro settings hmem
    refine h.inner ⟨.element t.1, settings⟩ (List.mem_cons_of_mem _ (List.mem_append_right _ ?_))
    exact List.mem_flatMap.mpr ⟨t, ht, List.mem_map_of_mem hmem⟩
  by_cases hempty : t.2 = []
  · simpa [elementBlocks, elementEntries, listEntry, hempty] using Makes.nil front
  · have hnew : t.1 ∉ keysOf front := by
      rw [elementEntries, listEntry, if_neg (by simpa using hempty)] at hfront
      exact notMem_of_nodup hfront
    have hmakes := makes_elements [] hnew hsettings
    simpa [elementBlocks, elementEntries, listEntry, List.flatMap_map] using hmakes

/-- The statements of a document in sections make its fields. -/
theorem WellNamed.assemble (h : l.WellNamed) :
    assemble (l.blocks.flatMap Block.statements) = some (.object l.fields) := by
  have hroot : (keysOf l.plain).Nodup := h.inner ⟨.root, l.plain⟩ List.mem_cons_self
  have hplain := settings_foldlM Focuses.root [] hroot
  obtain ⟨current, hrest⟩ := h.makes_tables.append h.makes_lists []
  have hblocks : l.blocks.flatMap Block.statements = l.plain.map settingStatement ++
      ((l.tables.flatMap fun t => (tableBlock t).statements) ++
        l.lists.flatMap fun t => (elementBlocks t).flatMap Block.statements) := by
    simp [blocks, Block.statements, Heading.statements, List.flatMap_map, List.flatMap_assoc]
  have hrun : (l.blocks.flatMap Block.statements).foldlM Progress.step ⟨[], []⟩ =
      some ⟨l.entries, current⟩ := by
    rw [hblocks, List.foldlM_append]
    change ((l.plain.map settingStatement).foldlM Progress.step ⟨id [], []⟩).bind _ = _
    rw [hplain]
    exact hrest
  rw [Toml.assemble, hrun, Option.map_some, entriesJson_entries]

/-- What was written of a document in sections is read as its fields. -/
theorem WellNamed.parse? (h : l.WellNamed) {text : String}
    (htext : write? (l.blocks.map Block.toSection) = some text) :
    parse? text = some (.object l.fields) := by
  rw [parse?_write h.bare htext, h.assemble]

end Outline

end FleetHealth.Toml
