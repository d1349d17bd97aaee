/-! # Blank characters, words and lines

A character is blank when it has the Unicode property White_Space. Texts are
lists of characters here; `trim`, `firstWord?` and `lines` are the three ways in
which the monitor cuts a text at blanks and line ends.
-/
namespace FleetHealth.Text

/-- Closed ranges of the code points with the property White_Space. -/
def blankRanges : List (Nat × Nat) :=
  [(0x09, 0x0D), (0x20, 0x20), (0x85, 0x85), (0xA0, 0xA0), (0x1680, 0x1680), (0x2000, 0x200A),
   (0x2028, 0x2029), (0x202F, 0x202F), (0x205F, 0x205F), (0x3000, 0x3000)]

def isBlank (c : Char) : Bool :=
  blankRanges.any fun r => r.1 ≤ c.toNat && c.toNat ≤ r.2

def trimEnd (s : List Char) : List Char :=
  (s.reverse.dropWhile isBlank).reverse

def trim (s : List Char) : List Char :=
  trimEnd (s.dropWhile isBlank)

def firstWord? (s : List Char) : Option (List Char) :=
  match (s.dropWhile isBlank).takeWhile (fun c => !isBlank c) with
  | [] => none
  | word => some word

def splitAt (sep : Char) : List Char → List (List Char)
  | [] => [[]]
  | c :: rest =>
    if c = sep then [] :: splitAt sep rest
    else match splitAt sep rest with
      | [] => [[c]]
      | piece :: pieces => (c :: piece) :: pieces

def cutFirst (sep : Char) : List Char → Option (List Char × List Char)
  | [] => none
  | c :: rest =>
    if c = sep then some ([], rest)
    else (cutFirst sep rest).map fun cut => (c :: cut.1, cut.2)

def cutLast (sep : Char) (s : List Char) : Option (List Char × List Char) :=
  (cutFirst sep s.reverse).map fun cut => (cut.2.reverse, cut.1.reverse)

def dropReturn (line : List Char) : List Char :=
  if line.getLast? = some '\r' then line.dropLast else line

/-- The lines of a text. A line ends at a line feed, which takes a carriage return
before it along; a last piece without line feed is a line unless it is empty. -/
def lines (s : List Char) : List (List Char) :=
  let pieces := splitAt '\n' s
  pieces.dropLast.map dropReturn ++ (pieces.getLast?.filter (· ≠ [])).toList

/-- Lower case for the ASCII letters; every other character stays. -/
def lower (s : List Char) : List Char := s.map Char.toLower

theorem cutFirst_eq_some {sep : Char} {s before after : List Char}
    (h : cutFirst sep s = some (before, after)) : s = before ++ sep :: after ∧ sep ∉ before := by
  induction s generalizing before with
  | nil => simp [cutFirst] at h
  | cons c rest ih =>
    by_cases hc : c = sep
    · simp [cutFirst, hc] at h
      simp [h.1, h.2, hc]
    · simp only [cutFirst, hc, if_false, Option.map_eq_some_iff] at h
      obtain ⟨⟨b, a⟩, hcut, heq⟩ := h
      simp only [Prod.mk.injEq] at heq
      obtain ⟨rfl, rfl⟩ := heq
      have hrest := ih hcut
      refine ⟨by simp [← hrest.1], ?_⟩
      simp [hrest.2, Ne.symm hc]

end FleetHealth.Text
