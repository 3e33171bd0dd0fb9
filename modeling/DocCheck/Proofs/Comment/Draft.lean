import DocCheck.Proofs.Comment.Margin
import DocCheck.Proofs.Comment.Reading
import DocCheck.Proofs.Text.Trim

/-!
# Drafts

A draft is a comment before it is written down: the lines of its descriptions and its tags with the
lines of their contents. Writing it puts one blank line between the short text, the long text and
the tags, a star in front of every line, and the opener and the closer on lines of their own.
Stripping the margin gives the lines of the draft back, each but the blank ones behind a space.
-/

namespace DocCheck

/-- A text without line ends. -/
def Text.OneLine (t : Text) : Prop := '\r' ∉ t ∧ '\n' ∉ t
  deriving Decidable

/-- A text on one line does not contain a line end. -/
theorem Text.OneLine.not_infix {t eol : Text} (h : t.OneLine) (heol : eol.IsLineEnd) :
    ¬ eol <:+: t := by
  intro hpart
  have hmem : '\n' ∈ eol := by rcases heol with rfl | rfl <;> decide
  exact h.2 (hpart.subset hmem)

/-- Two texts together lie on one line exactly if each does. -/
theorem Text.oneLine_append {t u : Text} : (t ++ u).OneLine ↔ t.OneLine ∧ u.OneLine := by
  simp only [OneLine, List.mem_append, not_or]
  tauto

/-- A name is written on one line. -/
theorem Text.oneLine_of_all_isTagChar {name : Text} (h : name.all isTagChar) : name.OneLine :=
  ⟨fun hc => absurd (List.all_eq_true.mp h _ hc) (by decide),
    fun hc => absurd (List.all_eq_true.mp h _ hc) (by decide)⟩

/-- A name ends visibly. -/
theorem Text.trimEnd_of_all_isTagChar {name : Text} (h : name.all isTagChar) :
    name.trimEnd = name :=
  trimEnd_eq_self_iff.mpr fun c hc =>
    isSpace_of_isTagChar (List.all_eq_true.mp h c (List.mem_of_getLast? hc))

/-- A tag with the lines of its content, in the form in which they are read back. -/
structure DraftTag where
  name : Text
  content : List Text
  name_ne_nil : name ≠ []
  name_chars : name.all isTagChar
  oneLine : ∀ l ∈ content, l.OneLine
  trimmed : ∀ l ∈ content, l.trim = l
  first_ne_nil : content.head? ≠ some []
  last_ne_nil : content.getLast? ≠ some []
  /-- The first line stands behind the name and cannot be taken for a header. -/
  noHeader : ∀ l ∈ content.tail, isHeader l = false

/-- A comment before it is written down. Since no line of the long text ends in white space, its
blank lines are empty. -/
structure Draft where
  short : List Text
  long : List Text
  tags : List DraftTag
  short_ne_nil : short ≠ []
  short_lines : ∀ l ∈ short, l ≠ [] ∧ l.trim = l
  long_lines : ∀ l ∈ long, l.trimEnd = l
  long_first_ne_nil : long.head? ≠ some []
  long_last_ne_nil : long.getLast? ≠ some []
  oneLine : ∀ l ∈ short ++ long, l.OneLine
  noHeader : ∀ l ∈ short ++ long, isHeader l = false

/-- The lines of a tag: the name with the first line of the content, and the further lines
indented by two spaces. -/
def DraftTag.lines (t : DraftTag) : List Text :=
  match t.content with
  | [] => ['@' :: t.name]
  | first :: further =>
    ('@' :: t.name ++ ' ' :: first) :: further.map fun l => if l.isEmpty then [] else "  " ++ l

namespace Draft

/-- The lines in front of the tags. -/
def body (d : Draft) : List Text :=
  d.short ++ (if d.long.isEmpty then [] else [] :: d.long) ++ if d.tags.isEmpty then [] else [[]]

/-- The lines of a draft, with a blank line between its parts. -/
def lines (d : Draft) : List Text := d.body ++ d.tags.flatMap DraftTag.lines

/-- A line behind its star. -/
def starred (l : Text) : Text := if l.isEmpty then " *" else " * " ++ l

/-- The draft as a comment. -/
def render (d : Draft) (eol : Text) : Text :=
  Text.join eol (("/**" : Text) :: d.lines.map starred ++ [(" */" : Text)])

/-- What stays of a line when its star is gone. -/
def spaced (l : Text) : Text := if l.isEmpty then [] else ' ' :: l

/-- An empty line gets no space. -/
theorem spaced_nil : spaced [] = [] := rfl

/-- Any other line gets a space. -/
theorem spaced_of_ne_nil {l : Text} (h : l ≠ []) : spaced l = ' ' :: l := by
  rw [spaced, if_neg (by simpa using h)]

/-- A line with its star is the star and the line with its space. -/
theorem starred_eq (l : Text) : starred l = ' ' :: '*' :: spaced l := by
  unfold starred spaced
  split <;> rfl

/-- The star adds no line end. -/
theorem oneLine_starred {l : Text} (h : l.OneLine) : (starred l).OneLine := by
  unfold starred
  split
  · decide
  · simpa [Text.OneLine] using h

/-- Stripping takes the star off again and leaves the space. -/
theorem dropStar_starred (l : Text) : Margin.dropStar (starred l) = spaced l := by
  rw [starred_eq]
  rfl

/-- The space is not at the end of a line. -/
theorem trimEnd_spaced {l : Text} (h : l.trimEnd = l) : (spaced l).trimEnd = spaced l := by
  by_cases hl : l = []
  · rw [hl]
    rfl
  · rw [spaced_of_ne_nil hl]
    exact Text.trimEnd_append (t := [' ']) hl h

/-- The space keeps a blank line blank, and no other line becomes blank. -/
theorem isBlank_spaced {l : Text} : (spaced l).isBlank = l.isBlank := by
  by_cases hl : l = []
  · rw [hl]
    rfl
  · rw [spaced_of_ne_nil hl]
    rfl

/-- The space is part of the margin in front of a tag. -/
theorem isHeader_spaced (l : Text) : isHeader (spaced l) = isHeader l := by
  by_cases hl : l = []
  · rw [hl]
    rfl
  · rw [spaced_of_ne_nil hl]
    rfl

end Draft

namespace Margin

/-- Stripping what was written behind stars, with the opener and the closer on lines of their own,
gives the lines back. -/
theorem strip_starred {eol : Text} (heol : eol.IsLineEnd) {ls : List Text}
    (hline : ∀ l ∈ ls, l.OneLine) (htrim : ∀ l ∈ ls, l.trimEnd = l) :
    strip (Text.join eol (("/**" : Text) :: ls.map Draft.starred ++ [(" */" : Text)])) eol =
      [] :: (ls.map Draft.spaced ++ [[]]) := by
  have hfree : ∀ p ∈ ("/**" : Text) :: ls.map Draft.starred ++ [(" */" : Text)],
      ¬ eol <:+: p := by
    intro p hp
    refine Text.OneLine.not_infix ?_ heol
    simp only [List.cons_append, List.mem_cons, List.mem_append, List.mem_map, List.not_mem_nil,
      or_false] at hp
    rcases hp with rfl | ⟨l, hl, rfl⟩ | rfl
    · decide
    · exact Draft.oneLine_starred (hline l hl)
    · decide
  -- The markers stand alone on their lines, so nothing is left of these.
  have hfirst : (dropOpener "/**").trimEnd = [] := by decide
  have hlast : (dropStar (dropCloser " */")).trimEnd = [] := by decide
  have hmap : (ls.map Draft.starred).map (fun l => (dropStar l).trimEnd) = ls.map Draft.spaced := by
    rw [List.map_map]
    refine List.map_congr_left fun l hl => ?_
    rw [Function.comp, Draft.dropStar_starred, Draft.trimEnd_spaced (htrim l hl)]
  rw [strip_join heol.headUnique (by simp) hfree, List.cons_append, stripLines_concat, hfirst,
    hlast, hmap]

end Margin

namespace DraftTag

/-- The remainder of the header line behind the name. -/
def rest (t : DraftTag) : Text := (t.content.head?.map (' ' :: ·)).getD []

/-- The further lines as they stand behind their stars. -/
def further (t : DraftTag) : List Text :=
  t.content.tail.map fun l => if l.isEmpty then [] else "   " ++ l

/-- Behind the stars a tag is a header line and further lines. -/
theorem map_spaced_lines (t : DraftTag) :
    t.lines.map Draft.spaced = (' ' :: '@' :: (t.name ++ t.rest)) :: t.further := by
  unfold lines rest further
  cases t.content with
  | nil => simp [Draft.spaced]
  | cons first further =>
    simp only [List.map_cons, List.map_map, List.head?_cons, Option.map_some, Option.getD_some,
      List.tail_cons, List.cons.injEq]
    refine ⟨rfl, List.map_congr_left fun l _ => ?_⟩
    by_cases hl : l = []
    · rw [hl]
      rfl
    · simp [Draft.spaced, hl]

/-- No line of a tag holds a line end or ends in white space. -/
theorem lines_clean (t : DraftTag) : ∀ l ∈ t.lines, l.OneLine ∧ l.trimEnd = l := by
  have hline : Text.OneLine ('@' :: t.name) :=
    Text.oneLine_append (t := ['@']).mpr ⟨by decide, Text.oneLine_of_all_isTagChar t.name_chars⟩
  have hend : Text.trimEnd t.name = t.name := Text.trimEnd_of_all_isTagChar t.name_chars
  have hcontent {l : Text} (hl : l ∈ t.content) : l.OneLine ∧ l.trimEnd = l :=
    ⟨t.oneLine l hl, (Text.trim_eq_self_iff.mp (t.trimmed l hl)).2⟩
  intro l hl
  unfold lines at hl
  split at hl
  · rw [List.mem_singleton.mp hl]
    exact ⟨hline, Text.trimEnd_append (t := ['@']) t.name_ne_nil hend⟩
  · next first further heq =>
    rcases List.mem_cons.mp hl with rfl | hl
    · have hfirst := hcontent (l := first) (by simp [heq])
      have hne : first ≠ [] := fun h => t.first_ne_nil (by rw [heq, h]; rfl)
      refine ⟨Text.oneLine_append.mpr ⟨hline, ?_⟩, ?_⟩
      · exact Text.oneLine_append (t := [' ']).mpr ⟨by decide, hfirst.1⟩
      · exact Text.trimEnd_append (by simp) (Text.trimEnd_append (t := [' ']) hne hfirst.2)
    · obtain ⟨m, hm, rfl⟩ := List.mem_map.mp hl
      obtain ⟨hmLine, hmEnd⟩ := hcontent (l := m) (by simp [heq, hm])
      split
      · exact ⟨by decide, rfl⟩
      · next hne =>
        exact ⟨Text.oneLine_append.mpr ⟨by decide, hmLine⟩,
          Text.trimEnd_append (by simpa using hne) hmEnd⟩

/-- The first line of a tag is read as its header. -/
theorem header?_rest (t : DraftTag) :
    header? (' ' :: '@' :: (t.name ++ t.rest)) = some (t.name, t.rest) := by
  refine header?_name t.name_ne_nil (List.all_eq_true.mp t.name_chars) fun c hc => ?_
  unfold rest at hc
  cases hcontent : t.content with
  | nil => simp [hcontent] at hc
  | cons first further =>
    rw [hcontent] at hc
    cases hc
    decide

/-- No further line of a tag is a header. -/
theorem isHeader_further (t : DraftTag) : ∀ l ∈ t.further, isHeader l = false := by
  intro l hl
  obtain ⟨m, hm, rfl⟩ := List.mem_map.mp hl
  split
  · rfl
  · exact t.noHeader m hm

/-- The last further line of a tag is not blank. -/
theorem isBlank_further (t : DraftTag) : ∀ l ∈ t.further.getLast?, l.isBlank = false := by
  intro l hl
  rw [further, List.getLast?_map] at hl
  obtain ⟨m, hm, rfl⟩ := Option.map_eq_some_iff.mp hl
  have hmem : m ∈ t.content := List.mem_of_mem_tail (List.mem_of_getLast? hm)
  have hne : m ≠ [] := by
    rintro rfl
    refine t.last_ne_nil ?_
    cases hcontent : t.content with
    | nil => simp [hcontent] at hm
    | cons first further =>
      rw [hcontent] at hm
      rw [List.tail_cons] at hm
      rw [List.getLast?_cons, hm]
      rfl
  rw [if_neg (by simpa using hne)]
  exact Text.isBlank_eq_false (by simp)
    (Text.trimEnd_append hne (Text.trim_eq_self_iff.mp (t.trimmed m hmem)).2)

/-- Trimming the lines of a tag gives the lines of its content. -/
theorem map_trim (t : DraftTag) (h : t.content ≠ []) :
    (t.rest :: t.further).map Text.trim = t.content := by
  have htrim {blank : Text} (hblank : blank.isBlank) {l : Text} (hl : l ∈ t.content) :
      Text.trim (blank ++ l) = l := (Text.trim_append_of_isBlank hblank l).trans (t.trimmed l hl)
  obtain ⟨first, others, hcontent⟩ := List.exists_cons_of_ne_nil h
  rw [hcontent] at htrim ⊢
  simp only [rest, further, hcontent, List.head?_cons, Option.map_some, Option.getD_some,
    List.tail_cons, List.map_cons, List.map_map, List.cons.injEq]
  refine ⟨htrim (show Text.isBlank [' '] from rfl) List.mem_cons_self, ?_⟩
  refine (List.map_congr_left (g := id) fun l hl => ?_).trans (List.map_id others)
  by_cases hl' : l = []
  · rw [hl']
    rfl
  · simp only [Function.comp, List.isEmpty_iff, hl', if_false, id]
    exact htrim (by decide) (List.mem_cons_of_mem _ hl)

/-- The lines of a tag, trimmed and joined, are its content. -/
theorem trim_join_map_trim (t : DraftTag) (eol : Text) :
    Text.trim (Text.join eol ((t.rest :: t.further).map Text.trim)) = Text.join eol t.content := by
  by_cases h : t.content = []
  · simp [rest, further, h, Text.trim, Text.trimStart, Text.trimEnd]
  · rw [map_trim t h, Text.trim_join t.trimmed t.first_ne_nil t.last_ne_nil]

end DraftTag

namespace Draft

/-- The lines in front of the tags are empty or lines of the descriptions. -/
theorem eq_nil_or_mem_of_mem_body {d : Draft} {l : Text} (h : l ∈ d.body) :
    l = [] ∨ l ∈ d.short ++ d.long := by
  rw [List.mem_append]
  unfold body at h
  split at h <;> split at h <;>
    simp only [List.mem_append, List.mem_cons, List.not_mem_nil] at h <;> tauto

/-- No line of a draft holds a line end or ends in white space. -/
theorem lines_clean (d : Draft) : ∀ l ∈ d.lines, l.OneLine ∧ l.trimEnd = l := by
  intro l hl
  rcases List.mem_append.mp hl with hl | hl
  · rcases eq_nil_or_mem_of_mem_body hl with rfl | hl
    · exact ⟨by decide, rfl⟩
    · refine ⟨d.oneLine l hl, ?_⟩
      rcases List.mem_append.mp hl with hl | hl
      · exact (Text.trim_eq_self_iff.mp (d.short_lines l hl).2).2
      · exact d.long_lines l hl
  · obtain ⟨t, -, hl⟩ := List.mem_flatMap.mp hl
    exact t.lines_clean l hl

/-- Stripping a written draft gives its lines, with a blank line for the opener and the closer. -/
theorem strip_render (d : Draft) {eol : Text} (heol : eol.IsLineEnd) :
    Margin.strip (d.render eol) eol = [] :: (d.lines.map spaced ++ [[]]) :=
  Margin.strip_starred heol (fun l hl => (d.lines_clean l hl).1) fun l hl => (d.lines_clean l hl).2

end Draft

end DocCheck
