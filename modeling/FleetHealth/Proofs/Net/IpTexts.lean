import FleetHealth.Proofs.Net.AddressShape
import Mathlib.Data.List.Induction

/-! # Texts of IP addresses read back

The canonical text of an IPv6 address leaves out its longest run of zero groups. Reading it
finds the two colons that stand for the run, since nowhere else do two of them meet, and
fills in as many zeros as there are groups missing.
-/
namespace FleetHealth.Net

open Text Number

/-! ## Groups -/

theorem hexNat?_append (s : List Char) (c : Char) :
    hexNat? (s ++ [c]) = (hexNat? s).bind fun n => (hexDigit? c).map (16 * n + ·) := by
  simp only [hexNat?, List.foldlM_append, List.foldlM_cons, List.foldlM_nil, Option.bind_eq_bind]
  congr 1
  funext n
  cases hexDigit? c <;> rfl

theorem hexDigit?_digitChar : ∀ d < 16, hexDigit? d.digitChar = some d := by decide

theorem hexNat?_hexText (n : Nat) : hexNat? (hexText n) = some n := by
  induction n using Nat.strongRecOn with
  | ind n ih =>
    rw [hexText, Nat.toDigits_eq_if (by decide)]
    split
    · next hsmall => simp [hexNat?, hexDigit?_digitChar n hsmall]
    · next hlarge =>
      change hexNat? (hexText (n / 16) ++ _) = _
      rw [hexNat?_append, ih (n / 16) (by omega), Option.bind_some,
        hexDigit?_digitChar _ (Nat.mod_lt n (by decide)), Option.map_some, Nat.div_add_mod]

theorem hexText_ne_nil (n : Nat) : hexText n ≠ [] := Nat.toDigits_ne_nil

theorem readGroup?_hexText {n : Nat} (h : n < 65536) : readGroup? (hexText n) = some n := by
  have hlength : (hexText n).length ≤ 4 :=
    (Nat.length_toDigits_le_iff (by decide) (by decide)).mpr h
  rw [readGroup?, if_neg (by simp [hexText_ne_nil]; omega), hexNat?_hexText]

theorem hexDigit?_lt {c : Char} {d : Nat} (h : hexDigit? c = some d) : d < 16 := by
  unfold hexDigit? at h
  split at h
  · next hdigit =>
    cases h
    simp only [isDigit, Bool.and_eq_true, decide_eq_true_eq] at hdigit
    have hhigh : c.toNat ≤ 57 := hdigit.2
    have hzero : '0'.toNat = 48 := rfl
    rw [digitValue]
    omega
  · split at h
    · next hletter =>
      cases h
      have hhigh : c.toLower.toNat ≤ 102 := hletter.2
      have ha : 'a'.toNat = 97 := rfl
      omega
    · cases h

theorem hexNat?_lt {s : List Char} {n : Nat} (h : hexNat? s = some n) : n < Nat.pow 16 s.length := by
  induction s using List.reverseRecOn generalizing n with
  | nil =>
    cases h
    decide
  | append_singleton s c ih =>
    rw [hexNat?_append, Option.bind_eq_some_iff] at h
    obtain ⟨m, hm, h⟩ := h
    obtain ⟨d, hd, rfl⟩ := Option.map_eq_some_iff.mp h
    have hfront := ih hm
    have hlast := hexDigit?_lt hd
    have hpow : Nat.pow 16 (s ++ [c]).length = Nat.pow 16 s.length * 16 := by
      rw [List.length_append]
      rfl
    omega

theorem readGroup?_lt {s : List Char} {n : Nat} (h : readGroup? s = some n) : n < 65536 := by
  unfold readGroup? at h
  split at h
  · cases h
  · next hsize =>
    have hlength : s.length ≤ 4 := Nat.le_of_not_lt fun hlong => hsize (.inr hlong)
    have hpow : Nat.pow 16 s.length ≤ Nat.pow 16 4 := Nat.pow_le_pow_right (by decide) hlength
    exact Nat.lt_of_lt_of_le (hexNat?_lt h) hpow

/-! ## The two colons of a run -/

theorem colon_notMem_hexText (n : Nat) : ':' ∉ hexText n := notMem_toDigits (by decide) (by decide) n

theorem cutDouble_cons {c : Char} {s : List Char} (h : c ≠ ':') :
    cutDouble (c :: s) = (cutDouble s).map fun cut => (c :: cut.1, cut.2) := by
  rw [cutDouble]
  exact fun _ hc => absurd hc h

theorem cutDouble_of_notMem {s : List Char} (rest : List Char) (h : ':' ∉ s) :
    cutDouble (s ++ rest) = (cutDouble rest).map fun cut => (s ++ cut.1, cut.2) := by
  induction s with
  | nil => simp
  | cons c s ih =>
    rw [List.mem_cons, not_or] at h
    rw [List.cons_append, cutDouble_cons (Ne.symm h.1), ih h.2, Option.map_map]
    rfl

theorem cutDouble_eq_none {s : List Char} (h : ':' ∉ s) : cutDouble s = none := by
  have hnone := cutDouble_of_notMem [] h
  rwa [List.append_nil] at hnone

theorem cutDouble_colon {c : Char} (s : List Char) (h : c ≠ ':') :
    cutDouble (':' :: c :: s) = (cutDouble (c :: s)).map fun cut => (':' :: cut.1, cut.2) := by
  rw [cutDouble]
  exact fun _ _ heq => h (List.cons.inj heq).1

theorem cutDouble_oneColon {s : List Char} (h : ':' ∉ s) : cutDouble (':' :: s) = none := by
  cases s with
  | nil => rfl
  | cons c s =>
    have hc : c ≠ ':' := fun hc => h (by simp [hc])
    rw [cutDouble_colon _ hc, cutDouble_eq_none h]
    rfl

theorem colonSeparated_cons (g g' : Nat) (groups : List Nat) :
    colonSeparated (g :: g' :: groups) = hexText g ++ ':' :: colonSeparated (g' :: groups) := by
  simp [colonSeparated, List.intercalate_cons_cons]

theorem colonSeparated_head (g : Nat) (groups : List Nat) :
    ∃ c s, colonSeparated (g :: groups) = c :: s ∧ c ≠ ':' := by
  obtain ⟨c, s, hg⟩ := List.exists_cons_of_ne_nil (hexText_ne_nil g)
  have hc : c ≠ ':' := fun hc => colon_notMem_hexText g (by simp [hg, hc])
  cases groups with
  | nil => exact ⟨c, s, by simp [colonSeparated, hg], hc⟩
  | cons g' groups => exact ⟨c, _, by rw [colonSeparated_cons, hg, List.cons_append], hc⟩

/-- Between groups there is one colon each. -/
theorem cutDouble_colonSeparated (groups : List Nat) (rest : List Char) :
    cutDouble (colonSeparated groups ++ rest) =
      (cutDouble rest).map fun cut => (colonSeparated groups ++ cut.1, cut.2) := by
  induction groups with
  | nil => simp [colonSeparated]
  | cons g groups ih =>
    cases groups with
    | nil => simpa [colonSeparated] using cutDouble_of_notMem rest (colon_notMem_hexText g)
    | cons g' groups =>
      obtain ⟨c, s, hhead, hc⟩ := colonSeparated_head g' groups
      rw [hhead] at ih
      rw [colonSeparated_cons, hhead, List.append_assoc, cutDouble_of_notMem _ (colon_notMem_hexText g),
        List.cons_append, List.cons_append, cutDouble_colon _ hc, ← List.cons_append, ih,
        Option.map_map, Option.map_map]
      congr 1
      funext cut
      simp

theorem splitAt_colonSeparated {groups : List Nat} (h : groups ≠ []) :
    splitAt ':' (colonSeparated groups) = groups.map hexText := by
  refine splitAt_intercalate (by simpa using h) fun piece hpiece => ?_
  obtain ⟨g, -, rfl⟩ := List.mem_map.mp hpiece
  exact colon_notMem_hexText g

theorem lastGroups?_hexText {n : Nat} (h : n < 65536) : lastGroups? (hexText n) = some [n] := by
  have hdot : '.' ∉ hexText n := notMem_toDigits (by decide) (by decide) n
  have hoctets : readOctets? (hexText n) = none := by rw [readOctets?, splitAt_of_notMem hdot]
  rw [lastGroups?, hoctets, readGroup?_hexText h, Option.map_some]

theorem readGroups?_cons (piece : List Char) {pieces : List (List Char)} (h : pieces ≠ []) :
    readGroups? (piece :: pieces) =
      (readGroup? piece).bind fun g => (readGroups? pieces).map fun gs => g :: gs := by
  rw [readGroups?]
  · cases readGroup? piece with
    | none => rfl
    | some g => cases readGroups? pieces <;> rfl
  · exact h

theorem readGroups?_hexText {groups : List Nat} (h : ∀ g ∈ groups, g < 65536) :
    readGroups? (groups.map hexText) = some groups := by
  induction groups with
  | nil => rfl
  | cons g groups ih =>
    have hg := h g List.mem_cons_self
    cases groups with
    | nil => exact lastGroups?_hexText hg
    | cons g' groups =>
      have hrest := ih fun g hg => h g (List.mem_cons_of_mem _ hg)
      simp only [List.map_cons] at hrest ⊢
      rw [readGroups?_cons _ (List.cons_ne_nil _ _), readGroup?_hexText hg, hrest]
      rfl

theorem mapM_readGroup?_hexText {groups : List Nat} (h : ∀ g ∈ groups, g < 65536) :
    (groups.map hexText).mapM readGroup? = some groups := by
  induction groups with
  | nil => rfl
  | cons g groups ih =>
    simp [readGroup?_hexText (h g List.mem_cons_self), ih fun g hg => h g (List.mem_cons_of_mem _ hg)]

theorem colonSeparated_eq_nil {groups : List Nat} : colonSeparated groups = [] ↔ groups = [] := by
  cases groups with
  | nil => simp [colonSeparated]
  | cons g groups =>
    obtain ⟨c, s, hhead, -⟩ := colonSeparated_head g groups
    simp [hhead]

theorem groupsOf_colonSeparated {read : List (List Char) → Option (List Nat)} {groups : List Nat}
    (h : read (groups.map hexText) = some groups) : groupsOf read (colonSeparated groups) = some groups := by
  by_cases hnil : groups = []
  · subst hnil
    rfl
  · rw [groupsOf, if_neg (mt colonSeparated_eq_nil.mp hnil), splitAt_colonSeparated hnil, h]

/-! ## The longest run -/

theorem take_of_le_zeroRun {groups : List Nat} {n : Nat} (h : n ≤ zeroRun groups) :
    groups.take n = List.replicate n 0 := by
  induction groups generalizing n with
  | nil =>
    obtain rfl : n = 0 := by simpa [zeroRun] using h
    rfl
  | cons g groups ih =>
    cases n with
    | zero => rfl
    | succ n =>
      by_cases hg : g = 0
      · have hrest : n ≤ zeroRun groups := by simpa [zeroRun, hg] using h
        rw [List.take_succ_cons, ih hrest, hg, List.replicate_succ]
      · simp [zeroRun, hg] at h

theorem zeroRun_le_length (groups : List Nat) : zeroRun groups ≤ groups.length :=
  (List.takeWhile_prefix _).length_le

/-- The run that is left out is one of zeros. -/
theorem longestZeroRun_le (groups : List Nat) :
    (longestZeroRun groups).2 ≤ zeroRun (groups.drop (longestZeroRun groups).1) := by
  have hfold : ∀ (starts : List Nat) (best : Nat × Nat), best.2 ≤ zeroRun (groups.drop best.1) →
      let run := starts.foldl (fun best i => if best.2 < zeroRun (groups.drop i) then
        (i, zeroRun (groups.drop i)) else best) best
      run.2 ≤ zeroRun (groups.drop run.1) := by
    intro starts
    induction starts with
    | nil => exact fun best h => h
    | cons i starts ih =>
      intro best h
      refine ih _ ?_
      dsimp only
      split
      · exact Nat.le_refl _
      · exact h
  exact hfold _ (0, 0) (Nat.zero_le _)

theorem splitAtRun (groups : List Nat) {start length : Nat}
    (h : length ≤ zeroRun (groups.drop start)) :
    groups = groups.take start ++ List.replicate length 0 ++ groups.drop (start + length) := by
  have hrun := take_of_le_zeroRun h
  rw [← hrun, List.append_assoc, ← List.drop_drop, List.take_append_drop, List.take_append_drop]

/-- The canonical text of eight groups is read as the same groups. -/
theorem readV6Groups?_groupsText {groups : List Nat} (hlength : groups.length = 8)
    (h : ∀ g ∈ groups, g < 65536) : readV6Groups? (groupsText groups) = some groups := by
  have hrun := longestZeroRun_le groups
  unfold groupsText
  split
  next start length hbest =>
  rw [hbest] at hrun
  dsimp only at hrun
  split
  · next hlong =>
    have hbound := zeroRun_le_length (groups.drop start)
    rw [List.length_drop] at hbound
    have hfront : ∀ g ∈ groups.take start, g < 65536 := fun g hg => h g (List.mem_of_mem_take hg)
    have hback : ∀ g ∈ groups.drop (start + length), g < 65536 :=
      fun g hg => h g (List.mem_of_mem_drop hg)
    -- the two colons are found where the run was, for there are single ones before it
    have hcut : cutDouble (colonSeparated (groups.take start) ++
        ':' :: ':' :: colonSeparated (groups.drop (start + length))) =
        some (colonSeparated (groups.take start), colonSeparated (groups.drop (start + length))) := by
      simp [cutDouble_colonSeparated, cutDouble]
    have hmissing : 8 - (groups.take start).length - (groups.drop (start + length)).length = length := by
      rw [List.length_take, List.length_drop]
      omega
    have hfits : (groups.take start).length + (groups.drop (start + length)).length ≤ 7 := by
      rw [List.length_take, List.length_drop]
      omega
    rw [readV6Groups?, hcut]
    simp only [groupsOf_colonSeparated (mapM_readGroup?_hexText hfront),
      groupsOf_colonSeparated (readGroups?_hexText hback), Option.bind_eq_bind, Option.bind_some,
      if_pos hfits, hmissing]
    rw [← splitAtRun groups hrun]
  · have hcut : cutDouble (colonSeparated groups) = none := by
      have hnone := cutDouble_colonSeparated groups []
      rwa [List.append_nil] at hnone
    have hgroups : groups ≠ [] := by
      rintro rfl
      cases hlength
    rw [readV6Groups?, hcut]
    simp [splitAt_colonSeparated hgroups, readGroups?_hexText h, hlength]

/-! ## What a literal has -/

theorem readOctet?_le {s : List Char} {n : Nat} (h : readOctet? s = some n) : n ≤ 255 := by
  unfold readOctet? at h
  split at h
  · cases h
    exact Nat.zero_le _
  · cases h
  · split at h
    · simpa using (Option.filter_eq_some_iff.mp h).2
    · cases h

theorem readOctets?_le {s : List Char} {a b c d : Nat} (h : readOctets? s = some (a, b, c, d)) :
    a ≤ 255 ∧ b ≤ 255 ∧ c ≤ 255 ∧ d ≤ 255 := by
  unfold readOctets? at h
  split at h
  · simp only [Option.bind_eq_bind, Option.bind_eq_some_iff, Option.some.injEq, Prod.mk.injEq] at h
    obtain ⟨_, ha, _, hb, _, hc, _, hd, rfl, rfl, rfl, rfl⟩ := h
    exact ⟨readOctet?_le ha, readOctet?_le hb, readOctet?_le hc, readOctet?_le hd⟩
  · cases h

theorem lastGroups?_lt {s : List Char} {groups : List Nat} (h : lastGroups? s = some groups) :
    groups.length ≤ 2 ∧ ∀ g ∈ groups, g < 65536 := by
  unfold lastGroups? at h
  split at h
  · next a b c d hoctets =>
    obtain ⟨ha, hb, hc, hd⟩ := readOctets?_le hoctets
    cases h
    refine ⟨Nat.le_refl 2, fun g hg => ?_⟩
    simp only [List.mem_cons, List.not_mem_nil, or_false] at hg
    rcases hg with rfl | rfl <;> omega
  · obtain ⟨g, hg, rfl⟩ := Option.map_eq_some_iff.mp h
    exact ⟨Nat.le_succ 1, fun g' hg' => List.mem_singleton.mp hg' ▸ readGroup?_lt hg⟩

theorem readGroups?_lt {pieces : List (List Char)} {groups : List Nat}
    (h : readGroups? pieces = some groups) : ∀ g ∈ groups, g < 65536 := by
  induction pieces generalizing groups with
  | nil =>
    cases h
    simp
  | cons piece pieces ih =>
    cases pieces with
    | nil => exact (lastGroups?_lt h).2
    | cons next pieces =>
      rw [readGroups?_cons piece (List.cons_ne_nil _ _)] at h
      obtain ⟨g, hg, hmore⟩ := Option.bind_eq_some_iff.mp h
      obtain ⟨rest, hrest, rfl⟩ := Option.map_eq_some_iff.mp hmore
      exact List.forall_mem_cons.mpr ⟨readGroup?_lt hg, ih hrest⟩

theorem mapM_readGroup?_lt {pieces : List (List Char)} {groups : List Nat}
    (h : pieces.mapM readGroup? = some groups) : ∀ g ∈ groups, g < 65536 := by
  induction pieces generalizing groups with
  | nil =>
    cases h
    simp
  | cons piece pieces ih =>
    simp only [List.mapM_cons, Option.bind_eq_bind, Option.bind_eq_some_iff] at h
    obtain ⟨g, hg, rest, hrest, h⟩ := h
    cases h
    intro g' hg'
    rcases List.mem_cons.mp hg' with rfl | hg'
    · exact readGroup?_lt hg
    · exact ih hrest g' hg'

theorem groupsOf_lt {read : List (List Char) → Option (List Nat)} {s : List Char} {groups : List Nat}
    (hread : ∀ {pieces groups}, read pieces = some groups → ∀ g ∈ groups, g < 65536)
    (h : groupsOf read s = some groups) : ∀ g ∈ groups, g < 65536 := by
  unfold groupsOf at h
  split at h
  · cases h
    simp
  · exact hread h

theorem readV6Groups?_shape {s : List Char} {groups : List Nat} (h : readV6Groups? s = some groups) :
    groups.length = 8 ∧ ∀ g ∈ groups, g < 65536 := by
  unfold readV6Groups? at h
  split at h
  · obtain ⟨hread, hlength⟩ := Option.filter_eq_some_iff.mp h
    exact ⟨by simpa using hlength, readGroups?_lt hread⟩
  · simp only [Option.bind_eq_bind, Option.bind_eq_some_iff] at h
    obtain ⟨front, hfront, back, hback, h⟩ := h
    split at h
    · next hfits =>
      cases h
      refine ⟨by simp; omega, fun g hg => ?_⟩
      simp only [List.mem_append, List.mem_replicate] at hg
      rcases hg with (hg | ⟨-, rfl⟩) | hg
      · exact groupsOf_lt mapM_readGroup?_lt hfront g hg
      · decide
      · exact groupsOf_lt readGroups?_lt hback g hg
    · cases h

/-- A text without colons is no IPv6 literal. -/
theorem readV6Groups?_of_notMem {s : List Char} (h : ':' ∉ s) : readV6Groups? s = none := by
  rw [readV6Groups?, cutDouble_eq_none h, splitAt_of_notMem h]
  cases hlast : readGroups? [s] with
  | none => rfl
  | some groups =>
    have hshort := (lastGroups?_lt hlast).1
    simp
    omega

/-! ## Literals of either family -/

theorem isV6_readIp?_of_notMem {s : List Char} {ip : IpAddress} (h : ':' ∉ s)
    (hread : readIp? s = some ip) : ip.isV6 = false := by
  unfold readIp? at hread
  split at hread
  · next ip' hv4 =>
    cases hread
    obtain ⟨octets, -, rfl⟩ := Option.map_eq_some_iff.mp hv4
    rfl
  · rw [readV6?, readV6Groups?_of_notMem h] at hread
    cases hread

theorem mem_hexText {n : Nat} {c : Char} (h : c ∈ hexText n) : ∃ d < 16, d.digitChar = c := by
  refine Classical.byContradiction fun hnone => ?_
  exact notMem_toDigits (by decide) (fun d hd hc => hnone ⟨d, hd, hc⟩) n h

theorem mem_colonSeparated {groups : List Nat} {c : Char} (h : c ∈ colonSeparated groups) :
    c = ':' ∨ ∃ d < 16, d.digitChar = c := by
  induction groups with
  | nil => simp [colonSeparated] at h
  | cons g groups ih =>
    cases groups with
    | nil => exact .inr (mem_hexText (by simpa [colonSeparated] using h))
    | cons g' groups =>
      rw [colonSeparated_cons, List.mem_append, List.mem_cons] at h
      rcases h with h | h | h
      · exact .inr (mem_hexText h)
      · exact .inl h
      · exact ih h

/-- The text has colons and hexadecimal digits only. -/
theorem mem_groupsText {groups : List Nat} {c : Char} (h : c ∈ groupsText groups) :
    c = ':' ∨ ∃ d < 16, d.digitChar = c := by
  unfold groupsText at h
  dsimp only at h
  split at h
  · simp only [List.mem_append, List.mem_cons] at h
    rcases h with h | h | h | h
    · exact mem_colonSeparated h
    · exact .inl h
    · exact .inl h
    · exact mem_colonSeparated h
  · exact mem_colonSeparated h

theorem dot_notMem_groupsText (groups : List Nat) : '.' ∉ groupsText groups := by
  intro h
  rcases mem_groupsText h with h | ⟨d, hd, h⟩
  · cases h
  · revert d
    decide

theorem readIp?_groupsText {groups : List Nat} (hlength : groups.length = 8)
    (h : ∀ g ∈ groups, g < 65536) : readIp? (groupsText groups) = some (.v6 groups) := by
  have hv4 : readV4? (groupsText groups) = none := by
    rw [readV4?, readOctets?, splitAt_of_notMem (dot_notMem_groupsText groups)]
    rfl
  rw [readIp?, hv4, readV6?, readV6Groups?_groupsText hlength h, Option.map_some]

end FleetHealth.Net
