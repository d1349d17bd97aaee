import FleetHealth.Metrics.Window
import Mathlib.Algebra.Order.Ring.Int
import Mathlib.Data.List.Infix
import Mathlib.Data.List.Sort

/-! # What a window recalls

A window is a function of the values it was given. It holds the latest of them, one fewer
than its capacity, and its rate is the growth over the latest as many as its capacity. What
came before those has no influence, so a counter that was set back is left behind as soon as
the window has been filled anew.
-/
namespace FleetHealth.RateWindow

/-- The window has been given the values, the latest of them last. -/
structure Recalls (capacity : Nat) (values : List Nat) (w : RateWindow) : Prop where
  capacity_eq : w.capacity = capacity
  samples : w.samples <:+ values
  size : w.samples.length = min values.length (capacity - 1)
  warm : w.warmedUp = true ↔ capacity ≤ values.length
  resting : values.length < capacity → w.rate = 0
  growth : capacity ≤ values.length → ∃ first last, values[values.length - capacity]? = some first ∧
    values.getLast? = some last ∧ (w.rate : Int) = max 0 ((last : Int) - first)

namespace Recalls

variable {capacity : Nat} {values : List Nat} {w w' : RateWindow}

theorem new (capacity : Capacity) : (RateWindow.new capacity).Recalls (max capacity.val 1) [] where
  capacity_eq := rfl
  samples := List.suffix_rfl
  size := by simp [RateWindow.new]
  warm := by simp [RateWindow.new]
  resting := fun _ => rfl
  growth := by simp

/-- A value is recalled: the push that fills the window drops the oldest one, which is the one
that the growth is counted from. -/
theorem push (h : w.Recalls capacity values) (hpos : 0 < capacity) (value : Nat) :
    (w.push value).Recalls capacity (values ++ [value]) := by
  obtain ⟨older, holder⟩ := h.samples
  have hsize := h.size
  have hcount : values.length = older.length + w.samples.length := by
    rw [← holder, List.length_append]
  have hpushed : values ++ [value] = older ++ (w.samples ++ [value]) := by
    rw [← holder, List.append_assoc]
  unfold RateWindow.push
  dsimp only
  split
  · next hfull =>
    rw [h.capacity_eq, List.length_append, List.length_singleton] at hfull
    obtain ⟨first, held, hheld⟩ := List.exists_cons_of_ne_nil (l := w.samples ++ [value]) (by simp)
    have hlength : held.length = w.samples.length := by
      have := congrArg List.length hheld
      simpa using this.symm
    rw [hheld]
    refine ⟨h.capacity_eq, ?_, ?_, ?_, ?_, fun _ => ⟨first, value, ?_, by simp, ?_⟩⟩
    · exact ⟨older ++ [first], by rw [hpushed, hheld]; simp⟩
    · simp only [List.tail_cons, List.length_append, List.length_singleton]
      omega
    · simp only [List.length_append, List.length_singleton, true_iff]
      omega
    · intro hless
      rw [List.length_append, List.length_singleton] at hless
      omega
    · have hindex : (values ++ [value]).length - capacity = older.length := by
        rw [List.length_append, List.length_singleton]
        omega
      rw [hindex, hpushed, hheld, List.getElem?_append_right (Nat.le_refl _), Nat.sub_self]
      rfl
    · simp only [List.headD_cons]
      omega
  · next hroom =>
    rw [h.capacity_eq, List.length_append, List.length_singleton] at hroom
    refine ⟨h.capacity_eq, ?_, ?_, ?_, ?_, ?_⟩
    · exact ⟨older, hpushed.symm⟩
    · simp only [List.length_append, List.length_singleton]
      omega
    · rw [h.warm, List.length_append, List.length_singleton]
      omega
    · intro _
      exact h.resting (by omega)
    · intro hfull
      rw [List.length_append, List.length_singleton] at hfull
      omega

theorem pushAll (h : w.Recalls capacity values) (hpos : 0 < capacity) (later : List Nat) :
    (later.foldl RateWindow.push w).Recalls capacity (values ++ later) := by
  induction later generalizing values w with
  | nil => simpa using h
  | cons value rest ih => simpa using ih (h.push hpos value)

theorem ofValues (capacity : Capacity) (values : List Nat) :
    (values.foldl RateWindow.push (.new capacity)).Recalls (max capacity.val 1) values :=
  (Recalls.new capacity).pushAll (Nat.le_max_right capacity.val 1) values

/-- A window that has been filled by the latest values does not tell what came before. -/
theorem forgets {older recent : List Nat} (h : w.Recalls capacity (older ++ recent))
    (h' : w'.Recalls capacity recent) (hpos : 0 < capacity) (hfull : capacity ≤ recent.length) :
    w = w' := by
  have hlong : capacity ≤ (older ++ recent).length := by
    rw [List.length_append]
    omega
  have hsamples : w.samples = w'.samples := by
    have hsuffix : w'.samples <:+ older ++ recent := h'.samples.trans (List.suffix_append ..)
    have hlength : w.samples.length = w'.samples.length := by
      rw [h.size, h'.size]
      omega
    exact (List.suffix_of_suffix_length_le h.samples hsuffix hlength.le).eq_of_length hlength
  have hrate : w.rate = w'.rate := by
    obtain ⟨first, last, hfirst, hlast, hgrowth⟩ := h.growth hlong
    obtain ⟨first', last', hfirst', hlast', hgrowth'⟩ := h'.growth hfull
    have hindex : (older ++ recent).length - capacity = older.length + (recent.length - capacity) := by
      rw [List.length_append]
      omega
    rw [hindex, List.getElem?_append_right (Nat.le_add_right ..), Nat.add_sub_cancel_left, hfirst',
      Option.some.injEq] at hfirst
    rw [List.getLast?_append_of_ne_nil _ (List.ne_nil_of_length_pos (hpos.trans_le hfull)), hlast',
      Option.some.injEq] at hlast
    omega
  have hwarm : w.warmedUp = w'.warmedUp := (h.warm.mpr hlong).trans (h'.warm.mpr hfull).symm
  have hcapacity : w.capacity = w'.capacity := h.capacity_eq.trans h'.capacity_eq.symm
  cases w
  cases w'
  simp_all

theorem rate_le (h : w.Recalls capacity values) {last : Nat} (hlast : values.getLast? = some last) :
    w.rate ≤ last := by
  rcases Nat.lt_or_ge values.length capacity with hless | hfull
  · rw [h.resting hless]
    exact Nat.zero_le _
  · obtain ⟨first, last', -, hlast', hgrowth⟩ := h.growth hfull
    rw [hlast, Option.some.injEq] at hlast'
    omega

/-- Over values that only grow the rate is exact. -/
theorem rate_of_ascending (h : w.Recalls capacity values) (hfull : capacity ≤ values.length)
    (hascending : values.Pairwise (· ≤ ·)) :
    ∃ first last, values[values.length - capacity]? = some first ∧
      values.getLast? = some last ∧ first + w.rate = last := by
  obtain ⟨first, last, hfirst, hlast, hgrowth⟩ := h.growth hfull
  refine ⟨first, last, hfirst, hlast, ?_⟩
  have hle : first ≤ last := by
    rw [List.getLast?_eq_getElem?] at hlast
    obtain ⟨hi, rfl⟩ := List.getElem?_eq_some_iff.mp hfirst
    obtain ⟨hj, rfl⟩ := List.getElem?_eq_some_iff.mp hlast
    exact hascending.sortedLE.getElem_le_getElem_of_le (by omega)
  omega

end Recalls

def answers (w : RateWindow) : List Nat → List Nat
  | [] => []
  | value :: rest => (w.push value).rate :: (w.push value).answers rest

theorem answers_eq (w : RateWindow) (values : List Nat) :
    w.answers values = values.inits.tail.map fun given => (given.foldl push w).rate := by
  induction values generalizing w with
  | nil => rfl
  | cons value rest ih =>
    have hinits : rest.inits = [] :: rest.inits.tail := by cases rest <;> rfl
    rw [answers, ih, List.inits_cons, List.tail_cons, hinits, List.map_cons, List.map_cons,
      List.map_map, List.tail_cons]
    rfl

theorem new?_eq_none_iff {size : Nat} : new? size = none ↔ capacityMax < size := by
  rw [new?, Option.map_eq_none_iff, Capacity.ofNat?]
  split <;> simp <;> omega

theorem new?_eq_some_iff {size : Nat} {w : RateWindow} :
    new? size = some w ↔ ∃ capacity : Capacity, capacity.val = size ∧ new capacity = w := by
  rw [new?, Option.map_eq_some_iff]
  refine exists_congr fun capacity => and_congr_left fun _ => ?_
  have hle : capacity.val ≤ capacityMax := Nat.le_of_lt_succ capacity.isLt
  unfold Capacity.ofNat?
  constructor
  · intro h
    split at h
    · exact congrArg Fin.val (Option.some.inj h).symm
    · cases h
  · rintro rfl
    rw [dif_pos hle]

/-- A window is made unless there is no room for it. The values that were pushed settle what it
holds, whether it is warm, and its rate, which every push answers with. The rate never exceeds
the latest value, wherever the counter was set back, and counts exactly from the moment that the
values since then fill the window. -/
theorem recalls_history (size : Nat) : (new? size = none ↔ capacityMax < size) ∧
    ∀ w, new? size = some w → ∀ values : List Nat,
      (values.foldl push w).Recalls (max size 1) values ∧
      w.answers values = values.inits.tail.map (fun given => (given.foldl push w).rate) ∧
      (∀ last, values.getLast? = some last → (values.foldl push w).rate ≤ last) ∧
      ∀ before since, values = before ++ since → max size 1 ≤ since.length →
        values.foldl push w = since.foldl push w ∧
          (since.Pairwise (· ≤ ·) → ∃ first last,
            since[since.length - max size 1]? = some first ∧ since.getLast? = some last ∧
              first + (values.foldl push w).rate = last) := by
  refine ⟨new?_eq_none_iff, fun w hw values => ?_⟩
  obtain ⟨capacity, rfl, rfl⟩ := new?_eq_some_iff.mp hw
  have hpos : 0 < max capacity.val 1 := Nat.le_max_right capacity.val 1
  have hrecalls := Recalls.ofValues capacity values
  refine ⟨hrecalls, answers_eq _ values, fun last => hrecalls.rate_le, ?_⟩
  rintro before since rfl hfull
  have hsince := Recalls.ofValues capacity since
  have hsame := hrecalls.forgets hsince hpos hfull
  refine ⟨hsame, fun hascending => ?_⟩
  rw [hsame]
  exact hsince.rate_of_ascending hfull hascending

/-- A window of two values over a counter that was set back from 100 to 5. -/
theorem two_values_pass_a_reset : new? 2 = some (new 2) ∧
    max 2 1 ≤ [5, 9].length ∧ [5, 9].Pairwise (· ≤ ·) ∧
    (new 2).answers [70, 100, 5, 9] = [0, 30, 0, 4] ∧
    [70, 100, 5, 9].foldl push (new 2) = [5, 9].foldl push (new 2) ∧
    5 + ([70, 100, 5, 9].foldl push (new 2)).rate = 9 := by
  have hnew : new? 2 = some (new 2) := rfl
  obtain ⟨-, hanswers, -, hsince⟩ := (recalls_history 2).2 _ hnew [70, 100, 5, 9]
  obtain ⟨hsame, hexact⟩ := hsince [70, 100] [5, 9] rfl (by decide)
  obtain ⟨first, last, hfirst, hlast, hrate⟩ := hexact (by decide)
  have hfive : first = 5 := (Option.some.inj hfirst).symm
  have hnine : last = 9 := (Option.some.inj hlast).symm
  subst hfive hnine
  exact ⟨hnew, by decide, by decide, hanswers, hsame, hrate⟩

end FleetHealth.RateWindow
