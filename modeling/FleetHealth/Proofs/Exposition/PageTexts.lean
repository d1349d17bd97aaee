import FleetHealth.Proofs.Exposition.LineForms

/-! # Pages read back

A page on which samples are written one a line is read as these samples in their order. It
makes no difference how the lines end and which other lines stand between them, as long as
none of these is a sample by itself.
-/
namespace FleetHealth.Exposition

open Text Number

/-! ## Written samples -/

theorem isSeriesName_of_isName {name : List Char} (h : isName isSampleStart name = true) :
    IsSeriesName name := by
  cases name with
  | nil => cases h
  | cons first rest =>
    refine ⟨List.cons_ne_nil _ _, fun c hc => ⟨isBlank_of_isPlain (isPlain_of_isName h c hc), fun hmark => ?_⟩⟩
    rw [isName, Bool.and_eq_true, List.all_eq_true] at h
    have hkept : (isSampleStart c || isDigit c) = true := by
      rcases List.mem_cons.mp hc with rfl | hc
      · exact Bool.or_eq_true_iff.mpr (.inl h.1)
      · exact h.2 c hc
    have hmarks : ∀ mark ∈ ['"', '{', '\x7d'], (isSampleStart mark || isDigit mark) = false := by
      simp only [List.forall_mem_cons]
      exact ⟨rfl, rfl, rfl, fun _ hmem => absurd hmem List.not_mem_nil⟩
    rw [hmarks c hmark] at hkept
    cases hkept

structure Gap where
  text : List Char
  nonempty : text ≠ []
  blank : ∀ c ∈ text, isBlank c = true ∧ c ≠ '\n'

theorem Gap.isBlank_head (g : Gap) {rest : List Char} {c : Char} (h : c ∈ (g.text ++ rest).head?) :
    isBlank c = true := by
  obtain ⟨first, others, htext⟩ := List.exists_cons_of_ne_nil g.nonempty
  rw [htext, List.cons_append, List.head?_cons, Option.mem_some_iff] at h
  exact (g.blank c (by simp [htext, h])).1

structure Stamp where
  gap : Gap
  digits : List Char
  integer : (readDigits? (cutSign digits).2).isSome = true

theorem Stamp.isPlain_digits (stamp : Stamp) : ∀ c ∈ stamp.digits, isPlain c = true := by
  obtain ⟨n, hdigits⟩ := Option.isSome_iff_exists.mp stamp.integer
  exact isPlain_of_cutSign (isPlain_of_readDigits? hdigits)

theorem Stamp.digits_ne_nil (stamp : Stamp) : stamp.digits ≠ [] := by
  intro hnil
  have hinteger := stamp.integer
  rw [hnil] at hinteger
  cases hinteger

/-- A sample with everything that is free in writing it. -/
structure WrittenSample where
  sample : Sample
  /-- Is there a comma after the last label? -/
  trailing : Bool
  gap : Gap
  /-- The literal of the value. -/
  token : List Char
  stamp : Option Stamp
  named : isName isSampleStart sample.name.toList = true
  labelled : ∀ l ∈ sample.labels.entries, isName isLabelStart l.1.toList = true
  distinct : Keyed.Distinct sample.labels.entries
  valued : readDouble? token = some sample.value

namespace WrittenSample

variable (w : WrittenSample)

def after : List Char :=
  match w.stamp with
  | some stamp => stamp.gap.text ++ stamp.digits
  | none => []

def tail : List Char := w.gap.text ++ (w.token ++ w.after)

def text : List Char :=
  w.sample.name.toList ++ (labelSet w.trailing w.sample.labels.entries ++ w.tail)

theorem token_ne_nil : w.token ≠ [] := ne_nil_of_readDouble? w.valued

/-- Blanks of the line and plain characters are all there is outside of the labels. -/
theorem mem_tail {c : Char} (h : c ∈ w.tail) :
    isBlank c = true ∧ c ≠ '\n' ∨ isPlain c = true := by
  have hafter : c ∈ w.after → isBlank c = true ∧ c ≠ '\n' ∨ isPlain c = true := by
    intro hc
    unfold after at hc
    split at hc
    · next stamp _ => exact (List.mem_append.mp hc).imp (stamp.gap.blank c) (stamp.isPlain_digits c)
    · cases hc
  rcases List.mem_append.mp h with hc | hc
  · exact .inl (w.gap.blank c hc)
  · rcases List.mem_append.mp hc with hc | hc
    · exact .inr (isPlain_of_readDouble? w.valued c hc)
    · exact hafter hc

theorem brace_notMem_tail : '{' ∉ w.tail := by
  intro hmem
  rcases w.mem_tail hmem with ⟨hblank, -⟩ | hplain
  · cases hblank
  · cases hplain

theorem newline_notMem_tail : '\n' ∉ w.tail := by
  intro hmem
  rcases w.mem_tail hmem with ⟨-, hne⟩ | hplain
  · exact hne rfl
  · cases hplain

theorem isBlank_of_mem_after {c : Char} (h : c ∈ w.after.head?) : isBlank c = true := by
  unfold after at h
  split at h
  · next stamp _ => exact stamp.gap.isBlank_head h
  · cases h

/-- A line ends with a literal or a timestamp, so there is nothing to trim from it. -/
theorem isBlank_of_mem_getLast? {c : Char} (h : c ∈ w.text.getLast?) : isBlank c = false := by
  have hends : ∃ front last, w.text = front ++ last ∧ last ≠ [] ∧ ∀ d ∈ last, isPlain d = true := by
    unfold text tail after
    split
    · next stamp _ =>
      exact ⟨w.sample.name.toList ++ (labelSet w.trailing w.sample.labels.entries ++
        (w.gap.text ++ (w.token ++ stamp.gap.text))), stamp.digits, by simp, stamp.digits_ne_nil,
        stamp.isPlain_digits⟩
    · exact ⟨w.sample.name.toList ++ (labelSet w.trailing w.sample.labels.entries ++ w.gap.text), w.token,
        by simp, w.token_ne_nil, isPlain_of_readDouble? w.valued⟩
  obtain ⟨front, last, htext, hlast, hplain⟩ := hends
  rw [htext, List.getLast?_append, List.getLast?_eq_some_getLast hlast, Option.some_or,
    Option.mem_some_iff] at h
  exact isBlank_of_isPlain (h ▸ hplain _ (List.getLast_mem hlast))

theorem text_eq_cons : ∃ first rest, w.text = first :: rest ∧ isSampleStart first = true := by
  have hnamed := w.named
  cases hname : w.sample.name.toList with
  | nil => simp [hname, isName] at hnamed
  | cons first others =>
    rw [hname, isName, Bool.and_eq_true] at hnamed
    exact ⟨first, _, by rw [text, hname, List.cons_append], hnamed.1⟩

theorem trim_text : trim w.text = w.text := by
  refine trim_eq_self (fun c hc => ?_) fun c hc => w.isBlank_of_mem_getLast? hc
  obtain ⟨first, rest, htext, hstart⟩ := w.text_eq_cons
  rw [htext] at hc
  cases hc
  exact isBlank_of_isPlain (isPlain_of_isSampleStart hstart)

theorem isComment_text : isComment w.text = false := by
  obtain ⟨first, rest, htext, hstart⟩ := w.text_eq_cons
  have hcomment : first ≠ '#' := by
    rintro rfl
    cases hstart
  simp [htext, isComment, hcomment]

/-- The labels of a written sample are a label set, or there are none. -/
theorem exists_set :
    ∃ set, labelSet w.trailing w.sample.labels.entries = setText set ∧
      (∀ text, set = some text → LabelSet .empty text w.sample.labels) ∧
      (set = none → w.sample.labels = .empty) := by
  by_cases hlabels : w.sample.labels.entries = []
  · exact ⟨none, by rw [hlabels]; rfl, nofun, fun _ => congrArg Keyed.mk hlabels⟩
  · obtain ⟨text, htext, hread⟩ := @readLabels_labelSet w.trailing _ hlabels w.labelled w.distinct w.tail
    obtain ⟨set, rfl, hset⟩ := readLabels_eq_some_iff.mp hread
    refine ⟨some set, List.append_cancel_right htext, ?_, nofun⟩
    rintro _ ⟨⟩
    exact hset

/-- What is written on a page is in the form. -/
theorem writtenAs : WrittenAs w.text w.sample := by
  obtain ⟨set, hset, hlabelled, hunlabelled⟩ := w.exists_set
  have hname := isPlain_of_isName w.named
  have htext : w.text = LineParts.text ⟨w.sample.name.toList, set, w.gap.text, w.token, w.after⟩ := by
    rw [LineParts.text, LineParts.tail, ← hset]
    rfl
  have htrim : trim w.sample.name.toList = w.sample.name.toList := trim_of_isPlain hname
  refine ⟨_, w.trim_text.trans htext, ?_, ?_, w.gap.nonempty, ?_⟩
  · have hbrace : '{' ∉ w.sample.name.toList := fun hmem => by cases hname _ hmem
    refine ⟨htext ▸ w.isComment_text, hbrace, hlabelled, fun hnone => ?_, ?_,
      fun c hc => (w.gap.blank c hc).1, w.valued, fun c hc => w.isBlank_of_mem_after hc⟩
    · refine ⟨hunlabelled hnone, fun c hc => isBlank_of_isPlain (hname c hc), w.gap.nonempty, fun hmem => ?_⟩
      exact w.brace_notMem_tail (by simp [tail, hmem])
    · rw [htrim, String.ofList_toList]
  · rw [htrim]
    exact isSeriesName_of_isName w.named
  · unfold after
    split
    · next stamp _ =>
      exact .inr ⟨_, _, rfl, stamp.gap.nonempty, fun c hc => (stamp.gap.blank c hc).1, stamp.integer⟩
    · exact .inl rfl

theorem lineSample?_text : lineSample? w.text = some w.sample :=
  lineSample?_eq_some_iff_written_or_strays.mpr (.inl w.writtenAs)

theorem newline_notMem_text : '\n' ∉ w.text := by
  unfold text
  simp only [List.mem_append, not_or]
  refine ⟨fun hmem => ?_, newline_notMem_labelSet w.labelled, w.newline_notMem_tail⟩
  cases isPlain_of_isName w.named _ hmem

end WrittenSample

/-! ## Lines of a page -/

inductive Row where
  | sample (w : WrittenSample)
  | blank (text : List Char) (blank : ∀ c ∈ text, isBlank c = true ∧ c ≠ '\n')
  | comment (indent text : List Char) (blank : ∀ c ∈ indent, isBlank c = true ∧ c ≠ '\n')
      (oneLine : '\n' ∉ text)
  /-- A line that is no sample by itself. -/
  | unreadable (text : List Char) (oneLine : '\n' ∉ text) (unread : parse (String.ofList text) = [])

namespace Row

def text : Row → List Char
  | .sample w => w.text
  | .blank text _ | .unreadable text _ _ => text
  | .comment indent text _ _ => indent ++ '#' :: text

def sample? : Row → Option Sample
  | .sample w => some w.sample
  | .blank _ _ | .comment _ _ _ _ | .unreadable _ _ _ => none

end Row

structure Line where
  row : Row
  returns : Bool

def Line.text (line : Line) : List Char :=
  line.row.text ++ if line.returns then ['\r'] else []

def page (ls : List Line) : String := String.ofList (List.intercalate ['\n'] (ls.map (·.text)))

/-! ## Reading a page -/

theorem lineSample?_dropReturn (line : List Char) : lineSample? (dropReturn line) = lineSample? line := by
  unfold dropReturn
  split
  · next hlast =>
    obtain ⟨front, rfl⟩ := List.getLast?_eq_some_iff.mp hlast
    rw [List.dropLast_concat, lineSample?, lineSample?, trim_concat_of_isBlank front (by decide)]
  · rfl

/-- Carriage returns before line feeds and a missing line feed at the end make no difference. -/
theorem parse_eq_pieces (body : String) :
    parse body = (splitAt '\n' body.toList).filterMap lineSample? := by
  unfold parse lines
  dsimp only
  have hpieces := splitAt_ne_nil '\n' body.toList
  generalize splitAt '\n' body.toList = pieces at hpieces ⊢
  obtain ⟨front, last, rfl⟩ : ∃ front last, pieces = front ++ [last] :=
    ⟨_, _, (List.dropLast_concat_getLast hpieces).symm⟩
  have hfront : (front.map dropReturn).filterMap lineSample? = front.filterMap lineSample? := by
    rw [List.filterMap_map]
    exact congrArg (List.filterMap · front) (funext lineSample?_dropReturn)
  have hlast : (((some last).filter (· ≠ [])).toList).filterMap lineSample? = [last].filterMap lineSample? := by
    by_cases hnil : last = []
    · subst hnil
      rfl
    · rw [Option.filter_some, if_pos (by simpa using hnil), Option.toList_some]
  rw [List.dropLast_concat, List.getLast?_concat, List.filterMap_append, List.filterMap_append, hfront,
    hlast]

theorem Row.lineSample?_text (row : Row) : lineSample? row.text = row.sample? := by
  cases row with
  | sample w => exact w.lineSample?_text
  | blank text blank =>
    rw [Row.text, lineSample?, trim_of_isBlank fun c hc => (blank c hc).1]
    rfl
  | comment indent text blank _ =>
    have hcomment : (trim (indent ++ '#' :: text)).head? = some '#' :=
      head?_trim text (fun c hc => (blank c hc).1) (by decide)
    simp [Row.text, Row.sample?, lineSample?, isComment, hcomment]
  | unreadable text oneLine unread =>
    rw [parse_eq_pieces, String.toList_ofList, splitAt_of_notMem oneLine] at unread
    cases hline : lineSample? text with
    | none => exact hline
    | some sample => simp [hline] at unread

theorem Row.newline_notMem_text (row : Row) : '\n' ∉ row.text := by
  cases row with
  | sample w => exact w.newline_notMem_text
  | blank text blank => exact fun hmem => (blank _ hmem).2 rfl
  | comment indent text blank oneLine =>
    intro hmem
    rcases List.mem_append.mp hmem with hmem | hmem
    · exact (blank _ hmem).2 rfl
    · simp [oneLine] at hmem
  | unreadable text oneLine => exact oneLine

theorem Line.newline_notMem_text (line : Line) : '\n' ∉ line.text := by
  have hrow := line.row.newline_notMem_text
  cases hreturns : line.returns <;> simp [Line.text, hreturns, hrow]

theorem Line.lineSample?_text (line : Line) : lineSample? line.text = line.row.sample? := by
  rw [← line.row.lineSample?_text, Line.text]
  cases line.returns with
  | false => simp
  | true => rw [if_pos rfl, lineSample?, lineSample?, trim_concat_of_isBlank line.row.text (by decide)]

/-- A page has the samples that were written on it, in their order. -/
theorem parse_page (ls : List Line) : parse (page ls) = ls.filterMap (·.row.sample?) := by
  have hread : (ls.map (·.text)).filterMap lineSample? = ls.filterMap (·.row.sample?) := by
    rw [List.filterMap_map]
    exact congrArg (List.filterMap · ls) (funext Line.lineSample?_text)
  rw [parse_eq_pieces, page, String.toList_ofList, ← hread]
  cases ls with
  | nil => rfl
  | cons line ls =>
    rw [splitAt_intercalate (by simp) fun text hmem => ?_]
    obtain ⟨line, -, rfl⟩ := List.mem_map.mp hmem
    exact line.newline_notMem_text

def oneSpace : Gap := ⟨[' '], by decide, List.forall_mem_singleton.mpr (by decide)⟩

/-- One value has everything in it that could end it. -/
def buildInfo : WrittenSample where
  sample := ⟨"build_info", ⟨[("path", "a\x7db\"c\\d\ne"), ("commit", "c0ffee")]⟩, .ofNat 3⟩
  trailing := true
  gap := oneSpace
  token := "3.0".toList
  stamp := some ⟨oneSpace, "1700000000000".toList, by decide⟩
  named := by decide
  labelled := by decide
  distinct := (by decide : ["path", "commit"].Nodup)
  valued := by decide

/-- Between a comment and a line that breaks off, the sample is found. -/
theorem buildInfo_is_found :
    ∃ ls, page ls = "# TYPE build_info gauge\r\n" ++
        "build_info\x7bpath=\"a\x7db\\\"c\\\\d\\ne\",commit=\"c0ffee\",\x7d 3.0 1700000000000\r\n" ++
        "up\x7b\n" ∧
      parse (page ls) = [buildInfo.sample] := by
  refine ⟨[⟨.comment [] " TYPE build_info gauge".toList (by simp) (by decide), true⟩,
    ⟨.sample buildInfo, true⟩, ⟨.unreadable "up\x7b".toList (by decide) (by decide), false⟩,
    ⟨.blank [] (by simp), false⟩], by decide, ?_⟩
  exact parse_page _

end FleetHealth.Exposition
