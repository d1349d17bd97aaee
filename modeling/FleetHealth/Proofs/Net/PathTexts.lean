import FleetHealth.Proofs.Net.IpTexts
import Mathlib.Data.List.DropRight
import Mathlib.Data.List.TakeWhile

/-! # Paths read back

In the path of a URL the dots are resolved and nothing is left to escape, so reading it again
changes nothing. Slashes at the end are empty segments; without them the path is still such
a path, or nothing is left of it.
-/
namespace FleetHealth.Net

open Text Number

/-! ## Escapes -/

theorem escapedInPath_upperHex : ∀ n < 16, escapedInPath (upperHex n) = false ∧
    upperHex n ∉ ['/', '\\'] := by decide

theorem mem_escapeByte {b : UInt8} {c : Char} (h : c ∈ escapeByte b) :
    escapedInPath c = false ∧ c ∉ ['/', '\\'] := by
  have hbyte : b.toNat < 256 := b.toNat_lt
  simp only [escapeByte, List.mem_cons, List.not_mem_nil, or_false] at h
  rcases h with rfl | rfl | rfl
  · decide
  · exact escapedInPath_upperHex _ (by omega)
  · exact escapedInPath_upperHex _ (by omega)

/-- What is escaped has nothing left to escape, and has no slashes that were not there before. -/
theorem mem_encodePath {s : List Char} {c : Char} (h : c ∈ encodePath s) :
    escapedInPath c = false ∧ (c ∈ ['/', '\\'] → c ∈ s) := by
  obtain ⟨d, hd, hc⟩ := List.mem_flatMap.mp h
  split at hc
  · obtain ⟨b, -, hb⟩ := List.mem_flatMap.mp hc
    obtain ⟨hescaped, hslash⟩ := mem_escapeByte hb
    exact ⟨hescaped, fun hmem => absurd hmem hslash⟩
  · next hescaped =>
    obtain rfl := List.mem_singleton.mp hc
    exact ⟨by simpa using hescaped, fun _ => hd⟩

theorem encodePath_of_plain {s : List Char} (h : ∀ c ∈ s, escapedInPath c = false) :
    encodePath s = s := by
  induction s with
  | nil => rfl
  | cons c s ih =>
    have hrest := ih fun d hd => h d (List.mem_cons_of_mem c hd)
    rw [encodePath] at hrest ⊢
    rw [List.flatMap_cons, h c List.mem_cons_self, hrest]
    rfl

/-! ## Segments -/

def PlainSegment (segment : List Char) : Prop :=
  ∀ c ∈ segment, escapedInPath c = false ∧ c ∉ ['/', '\\']

/-- A segment that reading does not change. -/
structure Settled (segment : List Char) : Prop where
  plain : PlainSegment segment
  noDouble : isDoubleDot segment = false
  noSingle : isSingleDot segment = false

theorem settled_nil : Settled [] := ⟨by simp [PlainSegment], by decide, by decide⟩

theorem mem_of_mem_dropSegment {done : List (List Char)} {segment : List Char}
    (h : segment ∈ dropSegment done) : segment ∈ done := by
  cases done with
  | nil => exact h
  | cons last before =>
    rw [dropSegment] at h
    split at h
    · exact h
    · exact List.mem_cons_of_mem _ h

theorem resolveSegments_settled {done segments : List (List Char)} (hdone : ∀ s ∈ done, Settled s)
    (h : ∀ s ∈ segments, PlainSegment s) : ∀ s ∈ resolveSegments done segments, Settled s := by
  fun_induction resolveSegments done segments with
  | case1 done => simpa using hdone
  | case2 done last =>
    intro s hs
    rcases List.mem_cons.mp (List.mem_reverse.mp hs) with rfl | hs
    · exact settled_nil
    · exact hdone s (mem_of_mem_dropSegment hs)
  | case3 done last =>
    intro s hs
    rcases List.mem_cons.mp (List.mem_reverse.mp hs) with rfl | hs
    · exact settled_nil
    · exact hdone s hs
  | case4 done last hdouble hsingle =>
    intro s hs
    rcases List.mem_cons.mp (List.mem_reverse.mp hs) with rfl | hs
    · exact ⟨h s List.mem_cons_self, by simpa using hdouble, by simpa using hsingle⟩
    · exact hdone s hs
  | case5 done segment segments _ _ ih =>
    exact ih (fun s hs => hdone s (mem_of_mem_dropSegment hs))
      fun s hs => h s (List.mem_cons_of_mem _ hs)
  | case6 done segment segments _ _ _ ih => exact ih hdone fun s hs => h s (List.mem_cons_of_mem _ hs)
  | case7 done segment segments _ hdouble hsingle ih =>
    refine ih (fun s hs => ?_) fun s hs => h s (List.mem_cons_of_mem _ hs)
    rcases List.mem_cons.mp hs with rfl | hs
    · exact ⟨h s List.mem_cons_self, by simpa using hdouble, by simpa using hsingle⟩
    · exact hdone s hs

theorem resolveSegments_ne_nil {done segments : List (List Char)} (h : segments ≠ []) :
    resolveSegments done segments ≠ [] := by
  fun_induction resolveSegments done segments with
  | case1 => exact absurd rfl h
  | case2 | case3 | case4 => simp
  | case5 done segment segments hmore _ ih | case6 done segment segments hmore _ _ ih
  | case7 done segment segments hmore _ _ ih => exact ih hmore

theorem resolveSegments_of_settled {done segments : List (List Char)}
    (h : ∀ s ∈ segments, Settled s) : resolveSegments done segments = done.reverse ++ segments := by
  fun_induction resolveSegments done segments with
  | case1 => simp
  | case2 done last hdouble => simp [(h last List.mem_cons_self).noDouble] at hdouble
  | case3 done last _ hsingle => simp [(h last List.mem_cons_self).noSingle] at hsingle
  | case4 => simp
  | case5 done segment segments _ hdouble => simp [(h segment List.mem_cons_self).noDouble] at hdouble
  | case6 done segment segments _ _ hsingle => simp [(h segment List.mem_cons_self).noSingle] at hsingle
  | case7 done segment segments _ _ _ ih =>
    rw [ih fun s hs => h s (List.mem_cons_of_mem _ hs)]
    simp

/-! ## Paths -/

def SettledPath (path : List Char) : Prop :=
  ∃ segments, segments ≠ [] ∧ (∀ s ∈ segments, Settled s) ∧ path = '/' :: List.intercalate ['/'] segments

def pathBody (s : List Char) : List Char :=
  match (s.takeWhile fun c => c ≠ '?' && c ≠ '#').map fun c => if c = '\\' then '/' else c with
  | '/' :: rest => rest
  | rest => rest

theorem specialPath_eq (s : List Char) : specialPath s =
    '/' :: List.intercalate ['/'] (resolveSegments [] ((splitAt '/' (pathBody s)).map encodePath)) := rfl

theorem backslash_notMem_pathBody (s : List Char) : '\\' ∉ pathBody s := by
  have hmap : '\\' ∉ (s.takeWhile fun c => c ≠ '?' && c ≠ '#').map
      fun c => if c = '\\' then '/' else c := by
    intro hmem
    obtain ⟨c, -, hc⟩ := List.mem_map.mp hmem
    split at hc
    · cases hc
    · next hne => exact hne hc
  unfold pathBody
  split
  · next rest hrest => exact fun hmem => hmap (hrest ▸ List.mem_cons_of_mem _ hmem)
  · exact hmap

theorem specialPath_settled (s : List Char) : SettledPath (specialPath s) := by
  refine ⟨_, resolveSegments_ne_nil (by simp [splitAt_ne_nil]), ?_, specialPath_eq s⟩
  refine resolveSegments_settled (by simp) fun segment hsegment c hc => ?_
  obtain ⟨piece, hpiece, rfl⟩ := List.mem_map.mp hsegment
  obtain ⟨hescaped, hslash⟩ := mem_encodePath hc
  refine ⟨hescaped, fun hmem => ?_⟩
  have hbody := hslash hmem
  simp only [List.mem_cons, List.not_mem_nil, or_false] at hmem
  rcases hmem with rfl | rfl
  · exact notMem_splitAt hpiece hbody
  · exact backslash_notMem_pathBody s (mem_of_mem_splitAt hpiece hbody)

theorem mem_settledPath {path : List Char} (h : SettledPath path) {c : Char} (hc : c ∈ path) :
    escapedInPath c = false ∧ c ≠ '\\' := by
  obtain ⟨segments, -, hsettled, rfl⟩ := h
  rcases List.mem_cons.mp hc with rfl | hc
  · decide
  · rcases mem_intercalate hc with rfl | ⟨segment, hsegment, hc⟩
    · decide
    · obtain ⟨hescaped, hslash⟩ := (hsettled segment hsegment).plain c hc
      exact ⟨hescaped, fun heq => hslash (by simp [heq])⟩

/-- A character that needs no escape ends no path. -/
theorem staysInPath {c : Char} (h : escapedInPath c = false) : c ≠ '?' ∧ c ≠ '#' ∧ 0x20 < c.toNat := by
  refine ⟨?_, ?_, ?_⟩
  · rintro rfl
    exact absurd h (by decide)
  · rintro rfl
    exact absurd h (by decide)
  · have hspace : c.toNat ≠ 0x20 := by
      intro hc
      obtain rfl : c = ' ' := Char.toNat_inj.mp hc
      exact absurd h (by decide)
    simp only [escapedInPath, isControlOrForeign, Bool.or_eq_false_iff, decide_eq_false_iff_not] at h
    omega

theorem pathBody_of_plain {body : List Char} (h : ∀ c ∈ body, escapedInPath c = false ∧ c ≠ '\\') :
    pathBody ('/' :: body) = body := by
  have hwhole : ('/' :: body).takeWhile (fun c => c ≠ '?' && c ≠ '#') = '/' :: body := by
    rw [List.takeWhile_eq_self_iff]
    intro c hc
    rcases List.mem_cons.mp hc with rfl | hc
    · rfl
    · have hstays := staysInPath (h c hc).1
      simp [hstays.1, hstays.2.1]
  have hslashes : ('/' :: body).map (fun c => if c = '\\' then '/' else c) = '/' :: body := by
    have hmap : body.map (fun c => if c = '\\' then '/' else c) = body.map id :=
      List.map_congr_left fun c hc => if_neg (h c hc).2
    rw [List.map_cons, hmap, List.map_id]
    rfl
  unfold pathBody
  rw [hwhole, hslashes]
  rfl

theorem specialPath_of_settled {path : List Char} (h : SettledPath path) : specialPath path = path := by
  have hmem := fun c hc => mem_settledPath h (c := c) hc
  obtain ⟨segments, hsegments, hsettled, rfl⟩ := h
  have hpieces : splitAt '/' (List.intercalate ['/'] segments) = segments := by
    refine splitAt_intercalate hsegments fun s hs hmem => ?_
    exact ((hsettled s hs).plain '/' hmem).2 (by decide)
  have hencoded : segments.map encodePath = segments := by
    have hmap : segments.map encodePath = segments.map id := List.map_congr_left fun s hs =>
      encodePath_of_plain fun c hc => ((hsettled s hs).plain c hc).1
    rw [hmap, List.map_id]
  rw [specialPath_eq, pathBody_of_plain fun c hc => hmem c (List.mem_cons_of_mem _ hc), hpieces,
    hencoded, resolveSegments_of_settled hsettled]
  rfl

/-! ## Slashes at the end -/

def trimSlashes (path : List Char) : List Char := path.rdropWhile (· = '/')

theorem intercalate_concat {sep : Char} {pieces : List (List Char)} (piece : List Char)
    (h : pieces ≠ []) : List.intercalate [sep] (pieces ++ [piece]) =
      List.intercalate [sep] pieces ++ sep :: piece := by
  induction pieces with
  | nil => exact absurd rfl h
  | cons first pieces ih =>
    cases pieces with
    | nil => simp [List.intercalate]
    | cons next pieces =>
      rw [List.cons_append, List.cons_append, List.intercalate_cons_cons, ← List.cons_append,
        ih (List.cons_ne_nil _ _), List.intercalate_cons_cons]
      simp

theorem trimSlashes_settled {path : List Char} (h : SettledPath path) :
    trimSlashes path = [] ∨ SettledPath (trimSlashes path) := by
  obtain ⟨segments, hsegments, hsettled, rfl⟩ := h
  -- the empty segments at the end are taken off one by one
  induction segments using List.reverseRecOn with
  | nil => exact absurd rfl hsegments
  | append_singleton segments last ih =>
    rcases List.eq_nil_or_concat last with rfl | ⟨front, c, rfl⟩
    · by_cases hfirst : segments = []
      · subst hfirst
        exact .inl rfl
      · rw [intercalate_concat _ hfirst, ← List.cons_append, trimSlashes,
          List.rdropWhile_concat_pos _ _ _ (by decide)]
        exact ih hfirst fun s hs => hsettled s (List.mem_append_left _ hs)
    · rw [List.concat_eq_append] at hsegments hsettled ⊢
      have hc : c ≠ '/' := by
        rintro rfl
        have hplain := (hsettled _ (List.mem_append_right _ List.mem_cons_self)).plain
        exact (hplain '/' (by simp)).2 (by decide)
      right
      have hkept : trimSlashes ('/' :: List.intercalate ['/'] (segments ++ [front ++ [c]])) =
          '/' :: List.intercalate ['/'] (segments ++ [front ++ [c]]) := by
        obtain ⟨whole, hwhole⟩ : ∃ whole, '/' :: List.intercalate ['/'] (segments ++ [front ++ [c]]) =
            whole ++ [c] := by
          by_cases hfirst : segments = []
          · exact ⟨'/' :: front, by simp [hfirst]⟩
          · exact ⟨'/' :: (List.intercalate ['/'] segments ++ '/' :: front), by
              rw [intercalate_concat _ hfirst]
              simp⟩
        rw [hwhole, trimSlashes, List.rdropWhile_concat_neg _ _ _ (by simpa using hc)]
      rw [hkept]
      exact ⟨_, hsegments, hsettled, rfl⟩

theorem trimPath_eq (path : String) : trimPath path =
    if trimSlashes path.toList = [] then none else some (String.ofList (trimSlashes path.toList)) := by
  unfold trimPath
  split
  · next h => exact (if_pos h).symm
  · next h => exact (if_neg h).symm

theorem trimPath_reread {path : List Char} (h : SettledPath path) :
    trimPath (String.ofList (specialPath (trimSlashes path))) = trimPath (String.ofList path) := by
  -- of the root nothing is left, and read again that is the root
  have hsame : trimSlashes (specialPath (trimSlashes path)) = trimSlashes path := by
    rcases trimSlashes_settled h with hempty | hsettled
    · rw [hempty]
      rfl
    · rw [specialPath_of_settled hsettled]
      exact List.rdropWhile_idempotent _ _
  rw [trimPath_eq, trimPath_eq, String.toList_ofList, String.toList_ofList, hsame]

end FleetHealth.Net
