import FleetHealth.Keyed

/-! # Inserting many entries

What is read of a name after a list of entries was inserted: the last entry of that name
takes precedence, and without one nothing has changed. Names stay distinct whatever is
inserted.
-/
namespace FleetHealth.Keyed

variable {α : Type}

def Distinct (entries : List (String × α)) : Prop := (entries.map (·.1)).Nodup

theorem mem_insertEntry {key : String} {value : α} {entries : List (String × α)}
    {e : String × α} (h : e ∈ insertEntry key value entries) : e = (key, value) ∨ e ∈ entries := by
  induction entries with
  | nil => exact .inl (List.mem_singleton.mp h)
  | cons first rest ih =>
    by_cases hkey : first.1 = key
    · rw [insertEntry, if_pos hkey] at h
      rcases List.mem_cons.mp h with h | h
      · exact .inl h
      · exact .inr (List.mem_cons_of_mem _ h)
    · rw [insertEntry, if_neg hkey] at h
      rcases List.mem_cons.mp h with rfl | h
      · exact .inr List.mem_cons_self
      · exact (ih h).imp_right (List.mem_cons_of_mem _)

theorem distinct_insertEntry (key : String) (value : α) {entries : List (String × α)}
    (h : Distinct entries) : Distinct (insertEntry key value entries) := by
  induction entries with
  | nil => simp [Distinct, insertEntry]
  | cons first rest ih =>
    have hfirst := List.nodup_cons.mp h
    by_cases hkey : first.1 = key
    · rw [insertEntry, if_pos hkey]
      simpa [Distinct, ← hkey] using h
    · rw [insertEntry, if_neg hkey]
      refine List.nodup_cons.mpr ⟨?_, ih hfirst.2⟩
      intro hmem
      obtain ⟨e, he, hname⟩ := List.mem_map.mp hmem
      rcases mem_insertEntry he with rfl | he
      · exact hkey hname.symm
      · exact hfirst.1 (List.mem_map.mpr ⟨e, he, hname⟩)

theorem insertAll_cons (m : Keyed α) (e : String × α) (entries : List (String × α)) :
    m.insertAll (e :: entries) = (m.insert e.1 e.2).insertAll entries := rfl

@[simp] theorem insertAll_nil (m : Keyed α) : m.insertAll [] = m := rfl

theorem distinct_insertAll {m : Keyed α} (h : Distinct m.entries) (entries : List (String × α)) :
    Distinct (m.insertAll entries).entries := by
  induction entries generalizing m with
  | nil => exact h
  | cons e rest ih => exact ih (distinct_insertEntry e.1 e.2 h)

theorem distinct_ofEntries (entries : List (String × α)) : Distinct (ofEntries entries).entries :=
  distinct_insertAll (m := empty) List.nodup_nil entries

theorem mem_insertAll {m : Keyed α} {entries : List (String × α)} {e : String × α}
    (h : e ∈ (m.insertAll entries).entries) : e ∈ m.entries ∨ e ∈ entries := by
  induction entries generalizing m with
  | nil => exact .inl h
  | cons first rest ih =>
    rcases ih h with h | h
    · rcases mem_insertEntry h with rfl | h
      · exact .inr List.mem_cons_self
      · exact .inl h
    · exact .inr (List.mem_cons_of_mem _ h)

theorem mem_of_get? {m : Keyed α} {key : String} {value : α} (h : m.get? key = some value) :
    (key, value) ∈ m.entries := by
  unfold get? at h
  generalize m.entries = entries at h ⊢
  induction entries with
  | nil => cases h
  | cons e rest ih =>
    rw [lookup_cons_eq] at h
    split at h
    · next hkey =>
      cases h
      rw [← hkey]
      exact List.mem_cons_self
    · exact List.mem_cons_of_mem _ (ih h)

/-- The last entry of a name is what is read of it; without one it is what was there. -/
theorem get?_insertAll (m : Keyed α) (entries : List (String × α)) (key : String) :
    (m.insertAll entries).get? key =
      ((entries.filter (·.1 = key)).getLast?.map (·.2)).or (m.get? key) := by
  induction entries generalizing m with
  | nil => rfl
  | cons e rest ih =>
    rw [insertAll_cons, ih, get?_insert]
    by_cases hkey : e.1 = key
    · rw [List.filter_cons_of_pos (by simpa using hkey), if_pos hkey, List.getLast?_cons]
      cases (rest.filter (·.1 = key)).getLast? <;> rfl
    · rw [List.filter_cons_of_neg (by simpa using hkey), if_neg hkey]

theorem get?_ofEntries (entries : List (String × α)) (key : String) :
    (ofEntries entries).get? key = (entries.filter (·.1 = key)).getLast?.map (·.2) := by
  rw [ofEntries, get?_insertAll, get?_empty, Option.or_none]

/-- With distinct names a name has one entry if it has a value, and none otherwise. -/
theorem filter_key {entries : List (String × α)} (h : Distinct entries) (key : String) :
    entries.filter (·.1 = key) = ((entries.lookup key).map fun value => (key, value)).toList := by
  induction entries with
  | nil => rfl
  | cons e rest ih =>
    have hfirst := List.nodup_cons.mp h
    rw [lookup_cons_eq]
    by_cases hkey : e.1 = key
    · have hrest : rest.filter (·.1 = key) = [] := by
        rw [List.filter_eq_nil_iff]
        intro e' he' hname
        have hsame : e'.1 = e.1 := (of_decide_eq_true hname).trans hkey.symm
        exact hfirst.1 (List.mem_map.mpr ⟨e', he', hsame⟩)
      rw [List.filter_cons_of_pos (by simpa using hkey), hrest, if_pos hkey, ← hkey]
      rfl
    · rw [List.filter_cons_of_neg (by simpa using hkey), if_neg hkey, ih hfirst.2]

theorem insertEntry_of_notMem {key : String} {value : α} {entries : List (String × α)}
    (h : key ∉ entries.map (·.1)) : insertEntry key value entries = entries ++ [(key, value)] := by
  induction entries with
  | nil => rfl
  | cons e rest ih =>
    rw [List.map_cons, List.mem_cons, not_or] at h
    rw [insertEntry, if_neg (Ne.symm h.1), ih h.2, List.cons_append]

theorem insertAll_of_distinct {front back : List (String × α)} (h : Distinct (front ++ back)) :
    (⟨front⟩ : Keyed α).insertAll back = ⟨front ++ back⟩ := by
  induction back generalizing front with
  | nil => simp
  | cons e rest ih =>
    have hnew : e.1 ∉ front.map (·.1) := by
      intro hmem
      rw [Distinct, List.map_append, List.nodup_append] at h
      exact h.2.2 e.1 hmem e.1 List.mem_cons_self rfl
    have hmoved : front ++ e :: rest = front ++ [e] ++ rest := by simp
    rw [insertAll_cons, insert, insertEntry_of_notMem hnew, ih (hmoved ▸ h), hmoved]

/-- Entries with distinct names are kept as they are. -/
theorem ofEntries_of_distinct {m : Keyed α} (h : Distinct m.entries) : ofEntries m.entries = m :=
  @insertAll_of_distinct α [] m.entries h

end FleetHealth.Keyed
