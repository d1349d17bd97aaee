import Mathlib.Data.List.Forall2

/-! # Steps that can fail

When a chain of steps has a value, when a step has one for every element of a list, and which
element it fails for otherwise.
-/
namespace FleetHealth

variable {ε ε' α β : Type}

theorem bind_eq_ok {x : Except ε α} {f : α → Except ε β} {b : β} :
    x >>= f = .ok b ↔ ∃ a, x = .ok a ∧ f a = .ok b := by
  cases x with
  | error e => simp [bind, Except.bind]
  | ok a => simp [bind, Except.bind]

theorem mapError_eq_ok {f : ε → ε'} {x : Except ε α} {a : α} :
    x.mapError f = .ok a ↔ x = .ok a := by
  cases x with
  | error e => simp [Except.mapError]
  | ok a => simp [Except.mapError]

/-- A step has values for all elements when it has one for each. -/
theorem mapM_eq_ok {f : α → Except ε β} {xs : List α} {ys : List β} :
    xs.mapM f = .ok ys ↔ List.Forall₂ (fun x y => f x = .ok y) xs ys := by
  induction xs generalizing ys with
  | nil =>
    rw [List.mapM_nil, List.forall₂_nil_left_iff]
    exact ⟨fun h => (Except.ok.inj h).symm, fun h => congrArg Except.ok h.symm⟩
  | cons x rest ih =>
    rw [List.mapM_cons, List.forall₂_cons_left_iff, bind_eq_ok]
    constructor
    · rintro ⟨y, hy, h⟩
      obtain ⟨ys', hrest, h⟩ := bind_eq_ok.mp h
      exact ⟨y, ys', hy, ih.mp hrest, (Except.ok.inj h).symm⟩
    · rintro ⟨y, ys', hy, hrest, rfl⟩
      exact ⟨y, hy, bind_eq_ok.mpr ⟨ys', ih.mpr hrest, rfl⟩⟩

/-- Whatever errors are made of, the values are those of the steps. -/
theorem mapM_mapError_eq_ok {f : α → Except ε β} {g : α → ε → ε'} {xs : List α} {ys : List β} :
    xs.mapM (fun x => (f x).mapError (g x)) = .ok ys ↔ List.Forall₂ (fun x y => f x = .ok y) xs ys := by
  simp only [mapM_eq_ok, mapError_eq_ok]

/-- A step that fails for some elements fails for the list as it does for the first of them. -/
theorem mapM_of_find? {f : α → Except ε β} {fails : α → Bool} {xs : List α} {x : α} {e : ε}
    (hfirst : xs.find? fails = some x) (hok : ∀ y ∈ xs, fails y = false → ∃ b, f y = .ok b)
    (he : f x = .error e) : xs.mapM f = .error e := by
  induction xs with
  | nil => cases hfirst
  | cons y rest ih =>
    rw [List.mapM_cons]
    cases hy : fails y with
    | true =>
      rw [List.find?_cons_of_pos hy] at hfirst
      cases hfirst
      rw [he]
      rfl
    | false =>
      rw [List.find?_cons_of_neg (by simp [hy])] at hfirst
      obtain ⟨b, hb⟩ := hok y List.mem_cons_self hy
      have hrest := ih hfirst fun z hz => hok z (List.mem_cons_of_mem y hz)
      rw [hb, hrest]
      rfl

/-- Where there is only one way to fail, the list fails exactly if some element does. -/
theorem mapM_eq_error_iff {f : α → Except ε β} {e : ε} (honly : ∀ x e', f x = .error e' → e' = e)
    {xs : List α} : xs.mapM f = .error e ↔ ∃ x ∈ xs, f x = .error e := by
  induction xs with
  | nil => simp [pure, Except.pure]
  | cons x rest ih =>
    rw [List.mapM_cons, List.exists_mem_cons_iff, ← ih]
    cases hx : f x with
    | error e' =>
      rw [honly x e' hx]
      simp [bind, Except.bind]
    | ok b => cases rest.mapM f <;> simp [bind, Except.bind, pure, Except.pure]

theorem exists_mapM_eq_ok {f : α → Except ε β} {xs : List α} (h : ∀ x ∈ xs, ∃ y, f x = .ok y) :
    ∃ ys, xs.mapM f = .ok ys := by
  induction xs with
  | nil => exact ⟨[], rfl⟩
  | cons x rest ih =>
    obtain ⟨y, hy⟩ := h x List.mem_cons_self
    obtain ⟨ys, hys⟩ := ih fun z hz => h z (List.mem_cons_of_mem x hz)
    refine ⟨y :: ys, ?_⟩
    rw [List.mapM_cons, hy, hys]
    rfl

/-- Lists on which a step agrees element by element give it the same result. -/
theorem mapM_congr_of_forall₂ {f : α → Except ε β} {xs xs' : List α}
    (h : List.Forall₂ (fun x x' => f x' = f x) xs xs') : xs'.mapM f = xs.mapM f := by
  induction h with
  | nil => rfl
  | cons hx _ ih => rw [List.mapM_cons, List.mapM_cons, hx, ih]

end FleetHealth
