import DocCheck.Proofs.Comment.Description
import DocCheck.Proofs.Comment.Draft

/-!
# Reading undoes writing

A draft that was written down is read back: its descriptions, its tags with their contents, and the
numbers of their lines. The lines are found in three steps, each with its own lemma: the margin is
stripped, the lines are cut at the first header, and the lines of each tag are grouped.
-/

namespace DocCheck

/-- Blank lines around the content are left out. -/
theorem contentLines_framed (ls : List Text) : contentLines ([] :: (ls ++ [[]])) = ls :=
  contentLines_concat rfl [] ls

/-- What a content is read as in the shapes that leave no content unread. -/
def Shape.element? (content : Text) : Shape → Option Element
  | .single => some (.single content)
  | .keyValue => some (.keyValue (splitKeyValue content).1 (splitKeyValue content).2)
  | .leaf | .property => none

/-- A content that its shape can hold is read, whatever the rank. -/
theorem RawTag.element_of_element? {t : RawTag} {shape : Shape} {eol : Text} {element : Element}
    (h : shape.element? (t.joinedText eol) = some element) (rank : Nat) :
    t.element shape rank eol = .ok element := by
  cases shape with
  | single | keyValue =>
    rw [Shape.element?, Option.some.injEq] at h
    simp only [RawTag.element, h]
  | leaf | property => cases h

namespace DraftTag

/-- The tags as they are grouped: the first header on line `line` with `blanks` blank lines above
it, and each further one directly below the tag before. -/
def rawFrom (line blanks : Nat) : List DraftTag → List RawTag
  | [] => []
  | t :: ts => ⟨t.name, line, t.rest, t.further, blanks⟩ :: rawFrom (line + t.lines.length) 0 ts

/-- Grouping finds the tags that were written. -/
theorem group_lines (blanks line : Nat) (ts : List DraftTag) :
    RawTag.group blanks line ((ts.flatMap lines).map Draft.spaced) =
      ([], rawFrom line blanks ts) := by
  induction ts generalizing blanks line with
  | nil => rfl
  | cons t ts ih =>
    have hlength : line + 1 + t.further.length = line + t.lines.length := by
      have := congrArg List.length t.map_spaced_lines
      rw [List.length_map, List.length_cons] at this
      omega
    rw [List.flatMap_cons, List.map_append, t.map_spaced_lines, List.cons_append,
      RawTag.group_cons_of_header t.header?_rest, RawTag.group_append t.isHeader_further,
      RawTag.blanksBehind_zero t.isBlank_further, ih, hlength, List.append_nil]
    rfl

/-- The occurrences of the tags with the given elements, the first on line `line` with the line ends
`above`, and each further one directly below the tag before. -/
def occurrencesFrom (v : Vocabulary) (eol : Text) (element : DraftTag → Element) (line : Nat)
    (above : Text) : List DraftTag → List Occurrence
  | [] => []
  | t :: ts =>
    ⟨t.name, (v.get? t.name).elim t.name (·.container), line, above, element t⟩ ::
      occurrencesFrom v eol element (line + t.lines.length) eol ts

/-- The occurrences have the names of the tags, in their order. -/
theorem map_name_occurrencesFrom (v : Vocabulary) (eol : Text) (element : DraftTag → Element)
    (line : Nat) (above : Text) (ts : List DraftTag) :
    (occurrencesFrom v eol element line above ts).map (·.name) = ts.map (·.name) := by
  induction ts generalizing line above with
  | nil => rfl
  | cons t ts ih => exact congrArg (t.name :: ·) (ih _ _)

/-- Every occurrence is that of a tag. -/
theorem exists_of_mem_occurrencesFrom {v : Vocabulary} {eol : Text} {element : DraftTag → Element}
    {line : Nat} {above : Text} {ts : List DraftTag} {o : Occurrence}
    (h : o ∈ occurrencesFrom v eol element line above ts) :
    ∃ t ∈ ts, o.name = t.name ∧ o.element = element t := by
  induction ts generalizing line above with
  | nil => cases h
  | cons t ts ih =>
    rcases List.mem_cons.mp h with rfl | h
    · exact ⟨t, List.mem_cons_self, rfl, rfl⟩
    · obtain ⟨u, hu, ho⟩ := ih h
      exact ⟨u, List.mem_cons_of_mem _ hu, ho⟩

/-- Tags that can be read whatever their contents are read with the contents that were written. -/
theorem readTags_rawFrom {v : Vocabulary} {eol : Text} {element : DraftTag → Element}
    {ts : List DraftTag}
    (h : ∀ t ∈ ts, ∃ g, v.get? t.name = some g ∧
      g.shape.element? (Text.join eol t.content) = some (element t))
    (rank line blanks : Nat) :
    readTags v eol rank (rawFrom line blanks ts) =
      .ok (occurrencesFrom v eol element line (eol.times (blanks + 1)) ts) := by
  induction ts generalizing rank line blanks with
  | nil => rfl
  | cons t ts ih =>
    obtain ⟨g, hg, helement⟩ := h t List.mem_cons_self
    have hts (rank : Nat) := ih (fun u hu => h u (List.mem_cons_of_mem _ hu)) rank
      (line + t.lines.length) 0
    have honce : eol.times (0 + 1) = eol := by simp [Text.times]
    have hread : RawTag.element ⟨t.name, line, t.rest, t.further, blanks⟩ g.shape rank eol =
        .ok (element t) :=
      RawTag.element_of_element? (by rwa [RawTag.joinedText, t.trim_join_map_trim]) rank
    simp only [rawFrom, readTags, hg, hread, hts, honce]
    simp only [Except.map, occurrencesFrom, hg, Option.elim_some, RawTag.above]

end DraftTag

namespace Draft

variable {eol : Text}

/-- The comment that a draft stands for, with the given elements for the contents of its tags. The
draft is written from line one on. -/
def comment (d : Draft) (v : Vocabulary) (eol : Text) (element : DraftTag → Element) :
    Comment where
  short := Text.join eol d.short
  long := Text.join eol d.long
  between := if d.long.isEmpty then [] else eol ++ eol
  breaksAfter := if d.tags.isEmpty then 1 else 2
  blanksBefore := 0
  shortEnd := d.short.length
  firstTag := if d.tags.isEmpty then none else some (d.body.length + 1)
  tags := DraftTag.occurrencesFrom v eol element (d.body.length + 1) (eol ++ eol) d.tags
  order := descriptionEntry :: d.tags.map (·.name)
  unknown := []

/-- No line in front of the tags is a header. -/
theorem isHeader_body (d : Draft) : ∀ l ∈ d.body.map spaced, isHeader l = false := by
  intro l hl
  obtain ⟨m, hm, rfl⟩ := List.mem_map.mp hl
  rw [isHeader_spaced]
  rcases eq_nil_or_mem_of_mem_body hm with rfl | hm
  · rfl
  · exact d.noHeader m hm

/-- The lines of the tags are none or start with a header. -/
theorem isHeader_head_tags (d : Draft) :
    ∀ l ∈ ((d.tags.flatMap DraftTag.lines).map spaced).head?, isHeader l = true := by
  intro l hl
  cases htags : d.tags with
  | nil => simp [htags] at hl
  | cons t ts =>
    rw [htags, List.flatMap_cons, List.map_append, t.map_spaced_lines, List.cons_append,
      List.head?_cons, Option.mem_some_iff] at hl
    rw [← hl, isHeader, t.header?_rest]
    rfl

/-- The description is found again in front of the tags. -/
theorem bodyLines_render (d : Draft) (heol : eol.IsLineEnd) :
    bodyLines (Margin.strip (d.render eol) eol) = d.body.map spaced := by
  rw [d.strip_render heol, bodyLines, contentLines_framed, lines, List.map_append]
  apply takeWhile_append_of_head?
  · simpa using d.isHeader_body
  · simpa using d.isHeader_head_tags

/-- The lines of the tags are found again behind the description. -/
theorem tagLines_render (d : Draft) (heol : eol.IsLineEnd) :
    tagLines (Margin.strip (d.render eol) eol) = (d.tags.flatMap DraftTag.lines).map spaced := by
  rw [d.strip_render heol, tagLines, contentLines_framed, lines, List.map_append]
  apply dropWhile_append_of_head?
  · simpa using d.isHeader_body
  · simpa using d.isHeader_head_tags

/-- The content starts behind the line with the opening marker. -/
theorem contentStart_render (d : Draft) (heol : eol.IsLineEnd) :
    contentStart (Margin.strip (d.render eol) eol) = 1 := by
  rw [d.strip_render heol]
  rfl

/-- The tags start behind the description. -/
theorem tagStart_render (d : Draft) (heol : eol.IsLineEnd) :
    tagStart (Margin.strip (d.render eol) eol) = d.body.length + 1 := by
  rw [tagStart, d.contentStart_render heol, d.bodyLines_render heol, List.length_map, Nat.add_comm]

/-- The lines in front of the tags are the two descriptions with a blank line behind each of them
that something follows. -/
theorem paragraphs_body (d : Draft) :
    Paragraphs [] (d.short.map spaced) (if d.long.isEmpty then [] else [[]]) (d.long.map spaced)
      (if d.tags.isEmpty then [] else [[]]) := by
  have hblank {c : Bool} : ∀ l ∈ if c then ([] : List Text) else [[]], l.isBlank := by
    cases c <;> simp [Text.isBlank]
  have hlong {l : Text} (hl : l ∈ d.long) (hne : l ≠ []) : (spaced l).isBlank = false := by
    rw [isBlank_spaced]
    exact Text.isBlank_eq_false hne (d.long_lines l hl)
  refine
    { leading_blank := by simp
      short_text := fun l hl => ?_
      short_ne_nil := by simpa using d.short_ne_nil
      gap_blank := hblank
      gap_eq_nil_iff := by simp
      long_first := fun l hl => ?_
      long_last := fun l hl => ?_
      trailing_blank := hblank }
  · obtain ⟨m, hm, rfl⟩ := List.mem_map.mp hl
    obtain ⟨hne, htrim⟩ := d.short_lines m hm
    rw [isBlank_spaced]
    exact Text.isBlank_eq_false hne (Text.trim_eq_self_iff.mp htrim).2
  · rw [List.head?_map] at hl
    obtain ⟨m, hm, rfl⟩ := Option.map_eq_some_iff.mp hl
    exact hlong (List.mem_of_mem_head? hm) fun h => d.long_first_ne_nil (h ▸ hm)
  · rw [List.getLast?_map] at hl
    obtain ⟨m, hm, rfl⟩ := Option.map_eq_some_iff.mp hl
    exact hlong (List.mem_of_getLast? hm) fun h => d.long_last_ne_nil (h ▸ hm)

/-- The parts of a description, with the blank lines between them written out. -/
theorem map_spaced_body (d : Draft) :
    d.body.map spaced = [] ++ (d.short.map spaced ++ ((if d.long.isEmpty then [] else [[]]) ++
      (d.long.map spaced ++ if d.tags.isEmpty then [] else [[]]))) := by
  unfold body
  cases d.long <;> cases d.tags <;> simp [spaced_nil]

/-- The description of a draft is read back. -/
theorem readDescription_body (d : Draft) (v : Vocabulary) (eol : Text)
    (element : DraftTag → Element) :
    readDescription (d.body.map spaced) 1 eol =
      { d.comment v eol element with
        firstTag := none, tags := [], order := [descriptionEntry] } := by
  have hshort : (d.short.map spaced).map Text.trim = d.short := by
    rw [List.map_map]
    refine (List.map_congr_left (g := id) fun l hl => ?_).trans (List.map_id _)
    obtain ⟨hne, htrim⟩ := d.short_lines l hl
    rw [Function.comp, spaced_of_ne_nil hne, id]
    exact (Text.trim_append_of_isBlank (show Text.isBlank [' '] from rfl) l).trans htrim
  have hlong : (d.long.map spaced).map dropSpace = d.long := by
    rw [List.map_map]
    refine (List.map_congr_left (g := id) fun l _ => ?_).trans (List.map_id _)
    by_cases hl : l = []
    · rw [hl]
      rfl
    · rw [Function.comp, spaced_of_ne_nil hl]
      rfl
  rw [map_spaced_body, d.paragraphs_body.readDescription_eq, hshort, hlong]
  cases hl : d.long.isEmpty <;> cases ht : d.tags.isEmpty <;>
    simp [comment, Text.times, hl, ht]

/-- The tags of a draft are found where they were written. -/
theorem rawTags_render (d : Draft) (heol : eol.IsLineEnd) :
    rawTags (Margin.strip (d.render eol) eol) =
      DraftTag.rawFrom (d.body.length + 1) 1 d.tags := by
  rw [rawTags, d.bodyLines_render heol, d.tagStart_render heol, d.tagLines_render heol,
    DraftTag.group_lines]
  by_cases htags : d.tags = []
  · rw [htags]
    rfl
  · have hone : trailingBlanks (d.body.map spaced) = 1 := by
      rw [map_spaced_body, d.paragraphs_body.trailingBlanks_eq]
      simp [htags]
    rw [hone]

/-- Grouping keeps the names of the tags. -/
theorem map_name_rawFrom (line blanks : Nat) (ts : List DraftTag) :
    (DraftTag.rawFrom line blanks ts).map (·.name) = ts.map (·.name) := by
  induction ts generalizing line blanks with
  | nil => rfl
  | cons t ts ih => exact congrArg (t.name :: ·) (ih _ _)

/-- Reading a written draft gives the comment that it stands for, if all its tags can be read. -/
theorem parse_render_of_element? (d : Draft) (heol : eol.IsLineEnd) {v : Vocabulary}
    {element : DraftTag → Element}
    (h : ∀ t ∈ d.tags, ∃ g, v.get? t.name = some g ∧
      g.shape.element? (Text.join eol t.content) = some (element t)) :
    Comment.parse (d.render eol) v eol = .ok (d.comment v eol element) := by
  have hunknown : (DraftTag.rawFrom (d.body.length + 1) 1 d.tags).filter
      (fun t => (v.get? t.name).isNone) = [] := by
    rw [List.filter_eq_nil_iff]
    intro t ht
    have hmem := List.mem_map_of_mem (f := (·.name)) ht
    rw [map_name_rawFrom] at hmem
    obtain ⟨u, hu, hname⟩ := List.mem_map.mp hmem
    obtain ⟨g, hg, -⟩ := h u hu
    rw [← hname, hg]
    exact Bool.false_ne_true
  have hempty : (tagLines (Margin.strip (d.render eol) eol)).isEmpty = d.tags.isEmpty := by
    rw [d.tagLines_render heol]
    cases d.tags with
    | nil => rfl
    | cons t ts =>
      rw [List.flatMap_cons, List.map_append, t.map_spaced_lines]
      rfl
  have htwice : eol.times (1 + 1) = eol ++ eol := by simp [Text.times]
  -- The tags are read first, and then every field of the comment is read off the lines.
  rw [Comment.parse_eq, d.rawTags_render heol, DraftTag.readTags_rawFrom h, Except.map, htwice]
  simp only [Comment.assemble, d.bodyLines_render heol, d.contentStart_render heol,
    d.readDescription_body v eol element, d.rawTags_render heol, d.tagStart_render heol, hempty,
    hunknown, map_name_rawFrom, List.map_nil]
  rfl

/-- Reading a written draft gives the comment that it stands for, if the contents of its tags are
free text. -/
theorem parse_render (d : Draft) (heol : eol.IsLineEnd) {v : Vocabulary}
    (h : ∀ t ∈ d.tags, ∃ g, v.get? t.name = some g ∧ g.shape = .single) :
    Comment.parse (d.render eol) v eol =
      .ok (d.comment v eol fun t => .single (Text.join eol t.content)) := by
  refine d.parse_render_of_element? heol fun t ht => ?_
  obtain ⟨g, hg, hshape⟩ := h t ht
  exact ⟨g, hg, by rw [hshape]; rfl⟩

/-- A draft with a paragraph break in the long text, a tag with a blank line in its content, and a
tag without content. -/
def wrapped : Draft where
  short := ["Short", "text."]
  long := ["  Long", "", "text."]
  tags := [
    { name := "see", content := ["Foo", "", "Bar"]
      name_ne_nil := by decide, name_chars := by decide, oneLine := by decide
      trimmed := by decide, first_ne_nil := by decide, last_ne_nil := by decide
      noHeader := by decide },
    { name := "version", content := []
      name_ne_nil := by decide, name_chars := by decide, oneLine := by decide
      trimmed := by decide, first_ne_nil := by decide, last_ne_nil := by decide
      noHeader := by decide }]
  short_ne_nil := by decide
  short_lines := by decide
  long_lines := by decide
  long_first_ne_nil := by decide
  long_last_ne_nil := by decide
  oneLine := by decide
  noHeader := by decide

/-- The blank lines inside the texts stay, and the second tag is three lines below the first. -/
theorem parse_render_wrapped :
    wrapped.render "\r\n" = "/**\r\n * Short\r\n * text.\r\n *\r\n *   Long\r\n *\r\n".toList ++
      " * text.\r\n *\r\n * @see Foo\r\n *\r\n *   Bar\r\n * @version\r\n */".toList ∧
    Comment.parse (wrapped.render "\r\n") .fileComment "\r\n" = .ok {
      short := "Short\r\ntext.", long := "  Long\r\n\r\ntext.", between := "\r\n\r\n"
      breaksAfter := 2, shortEnd := 2, firstTag := some 8
      tags := [⟨"see", "sees", 8, "\r\n\r\n", .single "Foo\r\n\r\nBar"⟩,
        ⟨"version", "version", 11, "\r\n", .single ""⟩]
      order := ["comment", "see", "version"] } := by
  refine ⟨by decide +kernel, ?_⟩
  rw [wrapped.parse_render (.inr rfl) (by decide +kernel)]
  decide +kernel

end Draft

end DocCheck
