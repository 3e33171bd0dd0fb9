import DocCheck.Proofs.Text.Trim
import DocCheck.Comment.Parser

/-!
# Reading a description

A description is blank lines, the lines of the short text, blank lines, the lines of the long text,
and blank lines again. Reading it finds these five parts: the short text ends at its first blank
line, and the long text ends with the last line that is not blank.
-/

namespace DocCheck

open Text

/-- Blank lines behind a line with text are the trailing ones. -/
theorem trailingBlanks_append {front trailing : List Text} (htrailing : ∀ l ∈ trailing, l.isBlank)
    (hfront : ∀ l ∈ front.getLast?, l.isBlank = false) :
    trailingBlanks (front ++ trailing) = trailing.length := by
  rw [trailingBlanks, List.reverse_append, takeWhile_append_of_head?, List.length_reverse]
  · simpa using htrailing
  · simpa using hfront

/-- Blank lines at the end of a text are dropped. -/
theorem dropBlankEnd_append {front trailing : List Text} (htrailing : ∀ l ∈ trailing, l.isBlank)
    (hfront : ∀ l ∈ front.getLast?, l.isBlank = false) :
    ((front ++ trailing).reverse.dropWhile isBlank).reverse = front := by
  rw [List.reverse_append, dropWhile_append_of_head?, List.reverse_reverse]
  · simpa using htrailing
  · simpa using hfront

/-- Behind the short text stand the gap, the long text and the trailing blank lines. -/
theorem exists_longText {behind : List Text} (hbehind : ∀ l ∈ behind.head?, l.isBlank) :
    ∃ gap long trailing, behind = gap ++ (long ++ trailing) ∧ (∀ l ∈ gap, l.isBlank) ∧
      (gap = [] ↔ long = []) ∧ (∀ l ∈ long.head?, l.isBlank = false) ∧
      (∀ l ∈ long.getLast?, l.isBlank = false) ∧ ∀ l ∈ trailing, l.isBlank := by
  obtain ⟨gap, rest, rfl, hgap, hrest⟩ := exists_span isBlank behind
  by_cases hnil : rest = []
  · exact ⟨[], [], gap, by rw [hnil, List.append_nil]; rfl, by simp, by simp, by simp, by simp,
      hgap⟩
  · obtain ⟨l, ls, rfl⟩ := List.exists_cons_of_ne_nil hnil
    have hl := hrest l rfl
    have hlong : (l :: ls).rdropWhile isBlank ≠ [] := by
      intro hall
      rw [List.rdropWhile_eq_nil_iff.mp hall l List.mem_cons_self] at hl
      cases hl
    have hsplit : l :: ls = (l :: ls).rdropWhile isBlank ++ (l :: ls).rtakeWhile isBlank :=
      List.rdropWhile_append_rtakeWhile.symm
    refine ⟨gap, (l :: ls).rdropWhile isBlank, (l :: ls).rtakeWhile isBlank, by rw [← hsplit], hgap,
      iff_of_false ?_ hlong, ?_, ?_, fun m hm => List.mem_rtakeWhile_imp hm⟩
    · rintro rfl
      rw [hbehind l rfl] at hl
      cases hl
    · intro m hm
      rw [← List.head?_append_of_ne_nil _ hlong, ← hsplit] at hm
      exact hrest m hm
    · intro m hm
      rw [List.getLast?_eq_some_getLast hlong] at hm
      cases hm
      simpa using List.rdropWhile_last_not isBlank (l :: ls) hlong

/-- The parts of a description: a short text without blank lines, a long text that neither starts
nor ends with one, and blank lines around them. Without a long text all blank lines behind the short
one are trailing. -/
structure Paragraphs (leading short gap long trailing : List Text) : Prop where
  leading_blank : ∀ l ∈ leading, l.isBlank
  short_text : ∀ l ∈ short, l.isBlank = false
  short_ne_nil : short ≠ []
  gap_blank : ∀ l ∈ gap, l.isBlank
  gap_eq_nil_iff : gap = [] ↔ long = []
  long_first : ∀ l ∈ long.head?, l.isBlank = false
  long_last : ∀ l ∈ long.getLast?, l.isBlank = false
  trailing_blank : ∀ l ∈ trailing, l.isBlank

namespace Paragraphs

variable {leading short gap long trailing : List Text}

/-- Behind the leading blank lines stands the short text. -/
theorem head?_text (h : Paragraphs leading short gap long trailing) :
    ∀ l ∈ (short ++ (gap ++ (long ++ trailing))).head?, l.isBlank = false := by
  intro l hl
  rw [List.head?_append_of_ne_nil _ h.short_ne_nil] at hl
  exact h.short_text l (List.mem_of_mem_head? hl)

/-- Behind the short text stands a blank line or nothing. -/
theorem head?_behind_short (h : Paragraphs leading short gap long trailing) :
    ∀ l ∈ (gap ++ (long ++ trailing)).head?, l.isBlank := by
  intro l hl
  cases hgap : gap with
  | nil =>
    rw [hgap, h.gap_eq_nil_iff.mp hgap] at hl
    exact h.trailing_blank l (List.mem_of_mem_head? hl)
  | cons g gs =>
    rw [hgap, List.cons_append, List.head?_cons, Option.mem_some_iff] at hl
    exact h.gap_blank l (by rw [hgap, hl]; exact List.mem_cons_self)

/-- The last line in front of the trailing blank lines has text. -/
theorem getLast?_front (h : Paragraphs leading short gap long trailing) :
    ∀ l ∈ (leading ++ (short ++ (gap ++ long))).getLast?, l.isBlank = false := by
  intro l hl
  rw [List.getLast?_append_of_ne_nil _ (by simp [h.short_ne_nil])] at hl
  by_cases hlong : long = []
  · rw [hlong, h.gap_eq_nil_iff.mpr hlong, List.append_nil, List.append_nil] at hl
    exact h.short_text l (List.mem_of_getLast? hl)
  · rw [← List.append_assoc, List.getLast?_append_of_ne_nil _ hlong] at hl
    exact h.long_last l hl

/-- The lines behind the gap are the long text and the trailing blank lines. -/
theorem drop_gap (h : Paragraphs leading short gap long trailing) (hlong : long ≠ []) :
    (gap ++ (long ++ trailing)).takeWhile isBlank = gap ∧
      (gap ++ (long ++ trailing)).dropWhile isBlank = long ++ trailing := by
  have hhead : ∀ l ∈ (long ++ trailing).head?, l.isBlank = false := by
    intro l hl
    rw [List.head?_append_of_ne_nil _ hlong] at hl
    exact h.long_first l hl
  exact ⟨takeWhile_append_of_head? h.gap_blank hhead, dropWhile_append_of_head? h.gap_blank hhead⟩

/-- The long text is found between the gap and the trailing blank lines. -/
theorem long_eq (h : Paragraphs leading short gap long trailing) :
    (((gap ++ (long ++ trailing)).dropWhile isBlank).reverse.dropWhile isBlank).reverse = long := by
  by_cases hlong : long = []
  · have hnone : trailing.dropWhile isBlank = [] := List.dropWhile_eq_nil_iff.mpr h.trailing_blank
    rw [h.gap_eq_nil_iff.mpr hlong, hlong, List.nil_append, List.nil_append, hnone]
    rfl
  · rw [(h.drop_gap hlong).2, dropBlankEnd_append h.trailing_blank h.long_last]

/-- The blank lines at the end are the trailing ones. -/
theorem trailingBlanks_eq (h : Paragraphs leading short gap long trailing) :
    trailingBlanks (leading ++ (short ++ (gap ++ (long ++ trailing)))) = trailing.length := by
  rw [← trailingBlanks_append h.trailing_blank h.getLast?_front]
  simp only [List.append_assoc]

/-- Reading finds the parts of a description. -/
theorem readDescription_eq (h : Paragraphs leading short gap long trailing) (start : Nat)
    (eol : Text) :
    readDescription (leading ++ (short ++ (gap ++ (long ++ trailing)))) start eol =
      { short := join eol (short.map trim)
        long := join eol (long.map dropSpace)
        between := if long.isEmpty then [] else eol.times (gap.length + 1)
        breaksAfter := trailing.length + 1
        blanksBefore := leading.length
        shortEnd := start + leading.length + short.length - 1 } := by
  have hshort : ∀ l ∈ short, (!l.isBlank) = true := by simpa using h.short_text
  have hbehind : ∀ l ∈ (gap ++ (long ++ trailing)).head?, (!l.isBlank) = false := by
    simpa using h.head?_behind_short
  have hbetween : (if long.isEmpty then ([] : Text)
      else eol.times (((gap ++ (long ++ trailing)).takeWhile isBlank).length + 1)) =
      if long.isEmpty then [] else eol.times (gap.length + 1) := by
    split
    · rfl
    · next hlong => rw [(h.drop_gap (by simpa using hlong)).1]
  have hne : (short ++ (gap ++ (long ++ trailing))).isEmpty = false := by
    simp [h.short_ne_nil]
  simp only [readDescription, takeWhile_append_of_head? h.leading_blank h.head?_text,
    dropWhile_append_of_head? h.leading_blank h.head?_text,
    takeWhile_append_of_head? hshort hbehind, dropWhile_append_of_head? hshort hbehind, h.long_eq,
    h.trailingBlanks_eq, hbetween, hne, Bool.false_eq_true, if_false]

/-- Every description with a line of text has these parts. -/
theorem exists_of_text {body : List Text} (h : ∃ l ∈ body, l.isBlank = false) :
    ∃ leading short gap long trailing, Paragraphs leading short gap long trailing ∧
      body = leading ++ (short ++ (gap ++ (long ++ trailing))) := by
  obtain ⟨leading, text, rfl, hleading, htext⟩ := exists_span isBlank body
  obtain ⟨short, behind, rfl, hshort, hbehind⟩ := exists_span (!·.isBlank) text
  have hshort : ∀ l ∈ short, l.isBlank = false := fun l hl => by simpa using hshort l hl
  have hbehind : ∀ l ∈ behind.head?, l.isBlank := fun l hl => by simpa using hbehind l hl
  -- The first line with text is in the short text, because what follows starts with a blank line.
  have hne : short ≠ [] := by
    rintro rfl
    cases behind with
    | nil =>
      obtain ⟨l, hl, hltext⟩ := h
      rw [List.append_nil, List.append_nil] at hl
      rw [hleading l hl] at hltext
      cases hltext
    | cons m ms =>
      have hm := htext m rfl
      rw [hbehind m rfl] at hm
      cases hm
  obtain ⟨gap, long, trailing, rfl, hgap, hiff, hfirst, hlast, htrailing⟩ := exists_longText hbehind
  exact ⟨leading, short, gap, long, trailing,
    ⟨hleading, hshort, hne, hgap, hiff, hfirst, hlast, htrailing⟩, rfl⟩

end Paragraphs

/-- Joined texts are empty only if the first of them is. -/
theorem eq_nil_of_join_cons_eq_nil {sep : Text} {t : Text} {ts : List Text}
    (h : join sep (t :: ts) = []) : t = [] := by
  by_cases hts : ts = []
  · rwa [hts, join_singleton] at h
  · rw [join_cons _ _ hts] at h
    exact (List.append_eq_nil_iff.mp h).1

/-- There is no description exactly if all lines of the body are blank. -/
theorem readDescription_eq_nil_iff (body : List Text) (start : Nat) (eol : Text) :
    (readDescription body start eol).short = [] ∧ (readDescription body start eol).long = [] ↔
      ∀ l ∈ body, l.isBlank := by
  rw [← List.dropWhile_eq_nil_iff (p := isBlank)]
  cases htext : body.dropWhile isBlank with
  | nil => simp [readDescription, htext]
  | cons l ls =>
    have hl : l.isBlank = false := by
      have hhead := List.head?_dropWhile_not isBlank body
      rw [htext] at hhead
      simpa using hhead
    have hne : join eol ((l :: ls.takeWhile (!isBlank ·)).map trim) ≠ [] := by
      intro hnil
      have htrim := trim_eq_nil_iff.mp (eq_nil_of_join_cons_eq_nil hnil)
      rw [hl] at htrim
      cases htrim
    simp only [readDescription, htext, List.isEmpty_cons, Bool.false_eq_true, if_false,
      List.takeWhile_cons, hl, Bool.not_false, if_true, hne, false_and, reduceCtorEq]

end DocCheck
