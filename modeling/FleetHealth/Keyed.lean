/-! # Values kept by name

A `Keyed α` holds at most one value for a name. It is a list of entries in order of
first insertion; everything is read from it through `get?`.
-/
namespace FleetHealth

structure Keyed (α : Type) where
  entries : List (String × α)
deriving DecidableEq, Repr

namespace Keyed

variable {α β : Type}

def empty : Keyed α := ⟨[]⟩

instance : Inhabited (Keyed α) := ⟨empty⟩

def keys (m : Keyed α) : List String := m.entries.map (·.1)

def size (m : Keyed α) : Nat := m.entries.length

def get? (m : Keyed α) (key : String) : Option α := m.entries.lookup key

def insertEntry (key : String) (value : α) : List (String × α) → List (String × α)
  | [] => [(key, value)]
  | (k, v) :: rest => if k = key then (key, value) :: rest else (k, v) :: insertEntry key value rest

def insert (m : Keyed α) (key : String) (value : α) : Keyed α := ⟨insertEntry key value m.entries⟩

/-- Inserts one entry after the other; of two with one name the later stays. -/
def insertAll (m : Keyed α) (entries : List (String × α)) : Keyed α :=
  entries.foldl (fun m e => m.insert e.1 e.2) m

def ofEntries (entries : List (String × α)) : Keyed α := empty.insertAll entries

theorem get?_empty (key : String) : (empty : Keyed α).get? key = none := rfl

theorem lookup_cons_eq (key k : String) (value : α) (rest : List (String × α)) :
    ((key, value) :: rest).lookup k = if key = k then some value else rest.lookup k := by
  by_cases h : key = k
  · simp [h]
  · have hne : (k == key) = false := beq_false_of_ne (Ne.symm h)
    rw [List.lookup_cons, hne, if_neg h]

theorem lookup_insertEntry (key k : String) (value : α) (entries : List (String × α)) :
    (insertEntry key value entries).lookup k = if key = k then some value else entries.lookup k := by
  induction entries with
  | nil => exact lookup_cons_eq key k value []
  | cons e rest ih =>
    by_cases h : e.1 = key
    · rw [insertEntry, if_pos h, lookup_cons_eq, lookup_cons_eq, h]
      split <;> rfl
    · rw [insertEntry, if_neg h, lookup_cons_eq, lookup_cons_eq, ih]
      by_cases hk : e.1 = k
      · have hkey : ¬key = k := fun hkey => h (hk.trans hkey.symm)
        rw [if_pos hk, if_neg hkey, if_pos hk]
      · rw [if_neg hk, if_neg hk]

theorem get?_insert (m : Keyed α) (key k : String) (value : α) :
    (m.insert key value).get? k = if key = k then some value else m.get? k :=
  lookup_insertEntry key k value m.entries

end Keyed

end FleetHealth
