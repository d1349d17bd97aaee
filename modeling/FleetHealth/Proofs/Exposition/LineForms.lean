import FleetHealth.Proofs.Exposition.LabelForms

/-! # Forms of sample lines

A sample is meant to be written as a name, labels in braces if it has any, blanks, its value and
perhaps a timestamp. The reader takes whatever stands before the first brace for the name and
asks nothing of it, nor of what follows the value, nor does it ask for blanks after the labels.
So every sample was written as one exactly if no line strays from the form in one of these ways.
-/
namespace FleetHealth.Exposition

open Text Number

/-! ## Parts of a line -/

/-- A line in its parts: the text before the labels, the label set after its opening brace if
there is one, blanks, the literal of the value, and what stands behind it. -/
structure LineParts where
  front : List Char
  set : Option (List Char)
  gap : List Char
  token : List Char
  after : List Char
deriving DecidableEq, Repr

def setText : Option (List Char) → List Char
  | some set => '{' :: set
  | none => []

namespace LineParts

def tail (p : LineParts) : List Char := p.gap ++ (p.token ++ p.after)

def text (p : LineParts) : List Char := p.front ++ (setText p.set ++ p.tail)

/-- The parts of a line that is read as this sample. Without labels the name is the first word. -/
structure Reads (p : LineParts) (sample : Sample) : Prop where
  uncommented : isComment p.text = false
  noBrace : '{' ∉ p.front
  labelled : ∀ set, p.set = some set → LabelSet .empty set sample.labels
  unlabelled : p.set = none → sample.labels = .empty ∧ (∀ c ∈ p.front, isBlank c = false) ∧
    p.gap ≠ [] ∧ '{' ∉ p.after
  named : sample.name = String.ofList (trim p.front)
  blank : ∀ c ∈ p.gap, isBlank c = true
  valued : readDouble? p.token = some sample.value
  ends : ∀ c ∈ p.after.head?, isBlank c = true

end LineParts

/-! ## The form of a line -/

def IsSeriesName (name : List Char) : Prop :=
  name ≠ [] ∧ ∀ c ∈ name, isBlank c = false ∧ c ∉ ['"', '{', '\x7d']

def IsTimestamp (text : List Char) : Prop :=
  text = [] ∨ ∃ gap digits, text = gap ++ digits ∧ gap ≠ [] ∧ (∀ c ∈ gap, isBlank c = true) ∧
    (readDigits? (cutSign digits).2).isSome = true

/-- The line is written as a name, perhaps with blanks and a label set after it, blanks, the
literal of a value and perhaps a timestamp. The sample is what these say. -/
def WrittenAs (line : List Char) (sample : Sample) : Prop :=
  ∃ p : LineParts, trim line = p.text ∧ p.Reads sample ∧ IsSeriesName (trim p.front) ∧ p.gap ≠ [] ∧
    IsTimestamp p.after

/-- The ways to stray from the form: no name at all, blanks, quotes or a closing brace in the name,
no blank before the value, or anything but a timestamp behind it. -/
inductive LineParts.Stray (p : LineParts) : Prop
  | nameless (empty : trim p.front = [])
  | misnamed {c : Char} (mem : c ∈ trim p.front) (mark : isBlank c = true ∨ c = '"' ∨ c = '\x7d')
  | unspaced (empty : p.gap = [])
  | trailing (other : ¬IsTimestamp p.after)

/-! ## Cutting a line -/

theorem isBlank_of_dropWhile {text : List Char} {c : Char}
    (h : c ∈ (text.dropWhile fun c => !isBlank c).head?) : isBlank c = true := by
  have hhead := List.head?_dropWhile_not (fun c => !isBlank c) text
  rw [Option.mem_def.mp h] at hhead
  simpa using hhead

theorem firstWord?_eq_some {text word : List Char} (h : firstWord? text = some word) :
    ∃ gap after, text = gap ++ (word ++ after) ∧ (∀ c ∈ gap, isBlank c = true) ∧
      ∀ c ∈ after.head?, isBlank c = true := by
  unfold firstWord? at h
  split at h
  · cases h
  · next hword =>
    cases h
    refine ⟨text.takeWhile isBlank, (text.dropWhile isBlank).dropWhile fun c => !isBlank c, ?_,
      fun c hc => List.all_eq_true.mp List.all_takeWhile c hc, fun c hc => isBlank_of_dropWhile hc⟩
    rw [List.takeWhile_append_dropWhile, List.takeWhile_append_dropWhile]

/-- The first brace ends the name if there is one, else the first blank does. -/
theorem cutSample_eq_some {line name rest : List Char} {labels : Keyed String}
    (h : cutSample line = some (name, labels, rest)) :
    '{' ∉ name ∧ ((∃ set, LabelSet .empty set labels ∧ line = name ++ '{' :: (set ++ rest)) ∨
      '{' ∉ line ∧ labels = .empty ∧ (∀ c ∈ name, isBlank c = false) ∧ line = name ++ rest ∧
        ∃ c ∈ rest.head?, isBlank c = true) := by
  unfold cutSample at h
  split at h
  · next before text hcut =>
    obtain ⟨⟨found, back⟩, hread, heq⟩ := Option.map_eq_some_iff.mp h
    simp only [Prod.mk.injEq] at heq
    obtain ⟨rfl, rfl, rfl⟩ := heq
    obtain ⟨rfl, hbrace⟩ := cutFirst_eq_some hcut
    obtain ⟨set, rfl, hset⟩ := readLabels_eq_some_iff.mp hread
    exact ⟨hbrace, .inl ⟨set, hset, rfl⟩⟩
  · next hcut =>
    have hbrace := notMem_of_cutFirst hcut
    dsimp only at h
    split at h
    · cases h
    · next hrest =>
      simp only [Option.some.injEq, Prod.mk.injEq] at h
      obtain ⟨rfl, rfl, rfl⟩ := h
      obtain ⟨c, back, hback⟩ := List.exists_cons_of_ne_nil hrest
      have hc : c ∈ (line.dropWhile fun c => !isBlank c).head? := by rw [hback]; rfl
      refine ⟨fun hmem => hbrace (List.takeWhile_subset _ hmem), .inr ⟨hbrace, rfl, fun d hd => ?_,
        List.takeWhile_append_dropWhile.symm, c, hc, isBlank_of_dropWhile hc⟩⟩
      simpa using List.all_eq_true.mp List.all_takeWhile d hd

namespace LineParts

variable {p p' : LineParts} {sample sample' : Sample}

theorem Reads.isPlain_token (h : p.Reads sample) : ∀ c ∈ p.token, isPlain c = true :=
  isPlain_of_readDouble? h.valued

theorem Reads.token_ne_nil (h : p.Reads sample) : p.token ≠ [] := ne_nil_of_readDouble? h.valued

theorem Reads.firstWord? (h : p.Reads sample) : firstWord? p.tail = some p.token :=
  firstWord?_append h.blank h.token_ne_nil h.isPlain_token h.ends

/-- The parts that are read are those in which the line is cut. -/
theorem Reads.cutSample (h : p.Reads sample) :
    cutSample p.text = some (p.front, sample.labels, p.tail) := by
  unfold Exposition.cutSample text
  cases hset : p.set with
  | some set =>
    rw [setText, List.cons_append, cutFirst_append _ h.noBrace]
    dsimp only
    rw [(h.labelled set hset).readLabels]
    rfl
  | none =>
    obtain ⟨hlabels, hword, hgap, hafter⟩ := h.unlabelled hset
    have hbrace : '{' ∉ p.front ++ p.tail := by
      simp only [tail, List.mem_append, not_or]
      refine ⟨h.noBrace, fun hmem => ?_, fun hmem => ?_, hafter⟩
      · cases h.blank _ hmem
      · cases h.isPlain_token _ hmem
    obtain ⟨c, gap, hcons⟩ := List.exists_cons_of_ne_nil hgap
    have htail : p.tail = c :: (gap ++ (p.token ++ p.after)) := by rw [tail, hcons, List.cons_append]
    have hc : isBlank c = true := h.blank c (hcons ▸ List.mem_cons_self)
    rw [setText, List.nil_append, cutFirst_of_notMem hbrace]
    dsimp only
    have hkept : ∀ c ∈ p.front, (!isBlank c) = true := fun c hc => by simp [hword c hc]
    rw [List.takeWhile_append_of_pos hkept, List.dropWhile_append_of_pos hkept, htail,
      List.takeWhile_cons_of_neg (by simp [hc]), List.dropWhile_cons_of_neg (by simp [hc]),
      if_neg (List.cons_ne_nil _ _), List.append_nil, hlabels]

theorem Reads.readSample? (h : p.Reads sample) : readSample? p.text = some sample := by
  unfold Exposition.readSample?
  simp only [h.cutSample, Option.bind_eq_bind, Option.bind_some, h.firstWord?, h.valued, ← h.named]

/-- A line that is read has parts. -/
theorem exists_reads {line : List Char} (hcomment : isComment line = false)
    (h : Exposition.readSample? line = some sample) : ∃ p : LineParts, line = p.text ∧ p.Reads sample := by
  unfold Exposition.readSample? at h
  simp only [Option.bind_eq_bind, Option.bind_eq_some_iff, Option.some.injEq] at h
  obtain ⟨⟨front, labels, rest⟩, hcut, word, hword, value, hvalue, rfl⟩ := h
  obtain ⟨gap, after, rfl, hgap, hafter⟩ := firstWord?_eq_some hword
  obtain ⟨hbrace, ⟨set, hset, rfl⟩ | ⟨hnone, hlabels, hfront, rfl, c, hc, hblank⟩⟩ := cutSample_eq_some hcut
  · exact ⟨⟨front, some set, gap, word, after⟩, rfl, hcomment, hbrace, by rintro _ ⟨⟩; exact hset, nofun,
      rfl, hgap, hvalue, hafter⟩
  · refine ⟨⟨front, none, gap, word, after⟩, rfl, hcomment, hbrace, nofun, fun _ => ⟨hlabels, hfront, ?_, ?_⟩,
      rfl, hgap, hvalue, hafter⟩
    · -- the value cannot begin where the name ends
      rintro rfl
      obtain ⟨d, word, rfl⟩ := List.exists_cons_of_ne_nil (ne_nil_of_readDouble? hvalue)
      cases hc
      rw [isBlank_of_isPlain (isPlain_of_readDouble? hvalue c List.mem_cons_self)] at hblank
      cases hblank
    · exact fun hmem => hnone (by simp [hmem])

theorem setText_injective {set set' : Option (List Char)} (h : setText set = setText set') : set = set' := by
  cases set with
  | none =>
    cases set' with
    | none => rfl
    | some _ => cases h
  | some _ =>
    cases set' with
    | none => cases h
    | some _ => exact congrArg some (List.cons.inj h).2

/-- The blanks end where the literal begins. -/
theorem Reads.cut_tail (h : p.Reads sample) :
    p.tail.takeWhile isBlank = p.gap ∧ p.tail.dropWhile isBlank = p.token ++ p.after := by
  obtain ⟨c, token, htoken⟩ := List.exists_cons_of_ne_nil h.token_ne_nil
  have hc : isBlank c = false := isBlank_of_isPlain (h.isPlain_token c (htoken ▸ List.mem_cons_self))
  rw [tail, htoken, List.cons_append]
  refine ⟨?_, dropWhile_isBlank h.blank (by simpa using hc)⟩
  rw [List.takeWhile_append_of_pos h.blank, List.takeWhile_cons_of_neg (by simp [hc]), List.append_nil]

/-- A line has one set of parts only, since its cuts are where the reader makes them. -/
theorem Reads.unique (h : p.Reads sample) (h' : p'.Reads sample') (htext : p.text = p'.text) : p = p' := by
  have hcut := h.cutSample
  rw [htext, h'.cutSample, Option.some.injEq, Prod.mk.injEq, Prod.mk.injEq] at hcut
  obtain ⟨hfront, -, htail⟩ := hcut
  have hset : p.set = p'.set := by
    rw [text, text, ← hfront, htail, List.append_cancel_left_eq] at htext
    exact setText_injective (List.append_cancel_right htext)
  obtain ⟨hgap, hrest⟩ := h.cut_tail
  obtain ⟨hgap', hrest'⟩ := h'.cut_tail
  rw [← htail] at hgap hrest
  obtain ⟨htoken, hafter⟩ := word_append h.isPlain_token h.ends
  obtain ⟨htoken', hafter'⟩ := word_append h'.isPlain_token h'.ends
  rw [← hrest, hrest'] at htoken hafter
  cases p
  cases p'
  simp_all

end LineParts

/-! ## Written and stray samples -/

/-- The line is read as this sample, but strays from the form. -/
def StraysAs (line : List Char) (sample : Sample) : Prop :=
  ∃ p : LineParts, trim line = p.text ∧ p.Reads sample ∧ p.Stray

variable {line : List Char} {sample : Sample}

theorem lineSample?_eq_some_iff :
    lineSample? line = some sample ↔ ∃ p : LineParts, trim line = p.text ∧ p.Reads sample := by
  constructor
  · intro h
    unfold lineSample? at h
    dsimp only at h
    split at h
    · cases h
    · next hline =>
      rw [Bool.or_eq_true, not_or] at hline
      exact LineParts.exists_reads ((Bool.not_eq_true _).mp hline.2) h
  · rintro ⟨p, htext, hreads⟩
    have hnonempty : p.text ≠ [] := by simp [LineParts.text, LineParts.tail, hreads.token_ne_nil]
    unfold lineSample?
    dsimp only
    rw [htext, hreads.uncommented, if_neg (by simpa using hnonempty), hreads.readSample?]

/-- A line that is read is in the form unless it strays from it. -/
theorem LineParts.Reads.stray_iff {p : LineParts} (h : p.Reads sample) :
    p.Stray ↔ ¬(IsSeriesName (trim p.front) ∧ p.gap ≠ [] ∧ IsTimestamp p.after) := by
  constructor
  · rintro (hempty | ⟨hmem, hmark⟩ | hempty | hother) ⟨hname, hgap, hafter⟩
    · exact hname.1 hempty
    · obtain ⟨hblank, hmarks⟩ := hname.2 _ hmem
      rcases hmark with hmark | rfl | rfl
      · rw [hblank] at hmark
        cases hmark
      · exact hmarks (by decide)
      · exact hmarks (by decide)
    · exact hgap hempty
    · exact hother hafter
  · intro hform
    by_contra hstray
    refine hform ⟨⟨fun hempty => hstray (.nameless hempty), fun c hc => ⟨?_, fun hmark => ?_⟩⟩,
      fun hempty => hstray (.unspaced hempty), not_not.mp fun hother => hstray (.trailing hother)⟩
    · exact Bool.eq_false_iff.mpr fun hblank => hstray (.misnamed hc (.inl hblank))
    · simp only [List.mem_cons, List.not_mem_nil, or_false] at hmark
      rcases hmark with rfl | rfl | rfl
      · exact hstray (.misnamed hc (.inr (.inl rfl)))
      · exact h.noBrace (mem_of_mem_trim hc)
      · exact hstray (.misnamed hc (.inr (.inr rfl)))

theorem WrittenAs.not_strays {sample' : Sample} (h : WrittenAs line sample) : ¬StraysAs line sample' := by
  rintro ⟨p', htext', hreads', hstray⟩
  obtain ⟨p, htext, hreads, hform⟩ := h
  obtain rfl := hreads.unique hreads' (htext.symm.trans htext')
  exact hreads.stray_iff.mp hstray hform

theorem lineSample?_eq_some_iff_written_or_strays :
    lineSample? line = some sample ↔ WrittenAs line sample ∨ StraysAs line sample := by
  rw [lineSample?_eq_some_iff]
  constructor
  · rintro ⟨p, htext, hreads⟩
    by_cases hstray : p.Stray
    · exact .inr ⟨p, htext, hreads, hstray⟩
    · exact .inl ⟨p, htext, hreads, not_not.mp fun hform => hstray (hreads.stray_iff.mpr hform)⟩
  · rintro (⟨p, htext, hreads, -⟩ | ⟨p, htext, hreads, -⟩)
    · exact ⟨p, htext, hreads⟩
    · exact ⟨p, htext, hreads⟩

/-- Every sample of a page was written in the form or comes from a line that strays from it, and
without such lines the samples are those that were written. -/
theorem samples_are_written_or_stray (body : String) :
    (∀ sample, sample ∈ parse body ↔
      ∃ line ∈ lines body.toList, WrittenAs line sample ∨ StraysAs line sample) ∧
    ((∀ line ∈ lines body.toList, ∀ sample, lineSample? line = some sample ↔ WrittenAs line sample) ↔
      ¬∃ line ∈ lines body.toList, ∃ sample, StraysAs line sample) := by
  refine ⟨fun sample => ?_, fun hwritten => ?_, fun hnone line hline sample => ?_⟩
  · simp only [parse, List.mem_filterMap, lineSample?_eq_some_iff_written_or_strays]
  · rintro ⟨line, hline, sample, hstrays⟩
    have hread := lineSample?_eq_some_iff_written_or_strays.mpr (.inr hstrays)
    exact ((hwritten line hline sample).mp hread).not_strays hstrays
  · rw [lineSample?_eq_some_iff_written_or_strays]
    exact or_iff_left fun hstrays => hnone ⟨line, hline, sample, hstrays⟩

/-- What stands before the labels is taken for the name, a value in it or not. -/
theorem labels_behind_value_make_a_name :
    parse "uptime 5 \x7bjob=\"node\"\x7d 7" = [⟨"uptime 5", ⟨[("job", "node")]⟩, .ofNat 7⟩] ∧
      ∀ line ∈ lines "uptime 5 \x7bjob=\"node\"\x7d 7".toList, ∀ sample, ¬WrittenAs line sample := by
  refine ⟨by decide, fun line hline sample hwritten => ?_⟩
  have hlines : lines "uptime 5 \x7bjob=\"node\"\x7d 7".toList =
      ["uptime 5 \x7bjob=\"node\"\x7d 7".toList] := by decide
  rw [hlines, List.mem_singleton] at hline
  obtain ⟨p, htext, hreads, hname, -⟩ := hwritten
  have hcut : cutSample (trim "uptime 5 \x7bjob=\"node\"\x7d 7".toList) =
      some ("uptime 5 ".toList, ⟨[("job", "node")]⟩, " 7".toList) := by decide
  rw [← hline, htext, hreads.cutSample, Option.some.injEq, Prod.mk.injEq] at hcut
  rw [hcut.1] at hname
  exact absurd (hname.2 ' ' (by decide)).1 (by decide)

end FleetHealth.Exposition
