import FleetHealth.Proofs.Metrics.Uptime
import FleetHealth.Proofs.Number.DecimalTexts
import FleetHealth.Proofs.Text.Pieces
import Mathlib.Tactic.SplitIfs

/-! # Uptimes read back

An uptime is written in figures, each a number with the letter of its unit, from the largest unit
that has passed down to minutes. Below a minute there are seconds alone. The figures can be read
back, so that a text tells the whole minutes or, below a minute, the seconds.
-/
namespace FleetHealth

open Number Text

/-! ## Figures -/

inductive TimeUnit where
  | day
  | hour
  | minute
  | second
deriving DecidableEq, Repr

namespace TimeUnit

def letter : TimeUnit → Char
  | day => 'd'
  | hour => 'h'
  | minute => 'm'
  | second => 's'

def seconds : TimeUnit → Nat
  | day => 86400
  | hour => 3600
  | minute => 60
  | second => 1

def ofLetter? : Char → Option TimeUnit
  | 'd' => some day
  | 'h' => some hour
  | 'm' => some minute
  | 's' => some second
  | _ => none

theorem ofLetter?_letter (unit : TimeUnit) : ofLetter? unit.letter = some unit := by
  cases unit <;> rfl

theorem letter_ne_blank (unit : TimeUnit) : unit.letter ≠ ' ' := by
  cases unit <;> decide

end TimeUnit

structure Figure where
  amount : Nat
  unit : TimeUnit
deriving DecidableEq, Repr

def Figure.text (f : Figure) : List Char := decimal f.amount ++ [f.unit.letter]

def writeFigures (figures : List Figure) : String :=
  String.ofList (List.intercalate [' '] (figures.map Figure.text))

def readFigure? (word : List Char) : Option Figure := do
  let unit ← word.getLast?.bind TimeUnit.ofLetter?
  let amount ← readDigits? word.dropLast
  return ⟨amount, unit⟩

def readFigures? (text : String) : Option (List Figure) := (splitAt ' ' text.toList).mapM readFigure?

def totalSeconds (figures : List Figure) : Nat := sumOf (figures.map fun f => f.amount * f.unit.seconds)

/-! ## Reading figures -/

theorem readFigure?_text (f : Figure) : readFigure? f.text = some f := by
  simp [readFigure?, Figure.text, TimeUnit.ofLetter?_letter, readDigits?_decimal]

theorem blank_notMem_text (f : Figure) : ' ' ∉ f.text := by
  intro hmem
  rcases List.mem_append.mp hmem with hdigit | hletter
  · exact absurd (isDigit_of_mem_decimal hdigit) (by decide)
  · exact f.unit.letter_ne_blank (List.mem_singleton.mp hletter).symm

theorem mapM_readFigure?_text (figures : List Figure) :
    (figures.map Figure.text).mapM readFigure? = some figures := by
  induction figures with
  | nil => rfl
  | cons f figures ih => simp [readFigure?_text, ih]

theorem readFigures?_writeFigures {figures : List Figure} (h : figures ≠ []) :
    readFigures? (writeFigures figures) = some figures := by
  rw [readFigures?, writeFigures, String.toList_ofList, splitAt_intercalate (by simpa using h),
    mapM_readFigure?_text]
  intro text hmem
  obtain ⟨f, -, rfl⟩ := List.mem_map.mp hmem
  exact blank_notMem_text f

/-! ## Figures of an uptime -/

def uptimeFigures (seconds : Nat) : List Figure :=
  let days : Figure := ⟨seconds / 86400, .day⟩
  let hours : Figure := ⟨seconds % 86400 / 3600, .hour⟩
  let minutes : Figure := ⟨seconds % 3600 / 60, .minute⟩
  if 0 < days.amount then [days, hours, minutes]
  else if 0 < hours.amount then [hours, minutes]
  else if 0 < minutes.amount then [minutes]
  else [⟨seconds, .second⟩]

theorem uptimeText_eq (seconds : Nat) : uptimeText seconds = writeFigures (uptimeFigures seconds) := by
  unfold uptimeText uptimeFigures
  dsimp only
  split_ifs <;> simp [writeFigures, Figure.text, TimeUnit.letter, List.intercalate]

theorem uptimeFigures_ne_nil (seconds : Nat) : uptimeFigures seconds ≠ [] := by
  unfold uptimeFigures
  dsimp only
  split_ifs <;> simp

theorem readFigures?_uptimeText (seconds : Nat) :
    readFigures? (uptimeText seconds) = some (uptimeFigures seconds) := by
  rw [uptimeText_eq, readFigures?_writeFigures (uptimeFigures_ne_nil seconds)]

/-- What a text can tell of an uptime: whole minutes, or the seconds if there are none. -/
def shownSeconds (seconds : Nat) : Nat := if seconds < 60 then seconds else 60 * (seconds / 60)

/-- The figures stand for the uptime, with no more of a unit than the next larger one leaves. -/
structure StandFor (figures : List Figure) (seconds : Nat) : Prop where
  units : figures.map (·.unit) ∈
    if seconds < 60 then [[.second]] else [[.day, .hour, .minute], [.hour, .minute], [.minute]]
  below : ∀ f ∈ figures.tail, f.unit = .hour ∧ f.amount < 24 ∨ f.unit = .minute ∧ f.amount < 60
  leading : ∀ f ∈ figures.head?, f.amount = 0 → seconds = 0
  total : totalSeconds figures = shownSeconds seconds

theorem totalSeconds_uptimeFigures (seconds : Nat) :
    totalSeconds (uptimeFigures seconds) = shownSeconds seconds := by
  unfold uptimeFigures shownSeconds totalSeconds
  dsimp only
  split_ifs with hday hhour hminute hshort <;>
    simp only [List.map_cons, List.map_nil, sumOf, List.foldr_cons, List.foldr_nil, TimeUnit.seconds] <;>
    omega

theorem uptimeFigures_standFor (seconds : Nat) : StandFor (uptimeFigures seconds) seconds := by
  refine ⟨?_, ?_, ?_, totalSeconds_uptimeFigures seconds⟩
  · unfold uptimeFigures
    dsimp only
    split_ifs with hday hhour hminute hshort <;> simp <;> omega
  · have hhours : seconds % 86400 / 3600 < 24 := by omega
    have hminutes : seconds % 3600 / 60 < 60 := by omega
    unfold uptimeFigures
    dsimp only
    split_ifs <;> simp [hhours, hminutes]
  · unfold uptimeFigures
    dsimp only
    split_ifs with hday hhour hminute <;> simp <;> omega

theorem uptimeFigures_shownSeconds (seconds : Nat) :
    uptimeFigures (shownSeconds seconds) = uptimeFigures seconds := by
  unfold shownSeconds
  split_ifs with hshort
  · rfl
  · have hdays : 60 * (seconds / 60) / 86400 = seconds / 86400 := by omega
    have hhours : 60 * (seconds / 60) % 86400 / 3600 = seconds % 86400 / 3600 := by omega
    have hminutes : 60 * (seconds / 60) % 3600 / 60 = seconds % 3600 / 60 := by omega
    unfold uptimeFigures
    rw [hdays, hhours, hminutes]
    dsimp only
    split_ifs
    · rfl
    · rfl
    · rfl
    · omega

/-- Two uptimes look alike exactly if what can be told of them is the same. -/
theorem uptimeText_eq_iff (seconds other : Nat) :
    uptimeText seconds = uptimeText other ↔ shownSeconds seconds = shownSeconds other := by
  constructor
  · intro htext
    have hfigures : uptimeFigures seconds = uptimeFigures other := by
      rw [← Option.some.injEq, ← readFigures?_uptimeText, ← readFigures?_uptimeText, htext]
    rw [← (uptimeFigures_standFor seconds).total, hfigures, (uptimeFigures_standFor other).total]
  · intro hshown
    rw [uptimeText_eq, uptimeText_eq, ← uptimeFigures_shownSeconds, hshown, uptimeFigures_shownSeconds]

/-- An uptime is written in figures that stand for its whole minutes, or for its seconds below a
minute, so that uptimes look alike exactly if these are the same. -/
theorem uptimeText_reads_back (seconds : Nat) :
    uptimeText seconds ≠ "" ∧
    (∃ figures, readFigures? (uptimeText seconds) = some figures ∧ StandFor figures seconds) ∧
    ∀ other, uptimeText seconds = uptimeText other ↔
      if seconds < 60 ∧ other < 60 then seconds = other else seconds / 60 = other / 60 := by
  refine ⟨uptimeText_ne_empty seconds,
    ⟨_, readFigures?_uptimeText seconds, uptimeFigures_standFor seconds⟩, fun other => ?_⟩
  rw [uptimeText_eq_iff, shownSeconds, shownSeconds]
  split_ifs <;> omega

example : uptimeText 93784 = "1d 2h 3m" := by decide

end FleetHealth
