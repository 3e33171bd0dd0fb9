import DocCheck.Proofs.Comment.Property
import DocCheck.Proofs.LineEnding.Text

/-!
# Line ends in a comment

The stripped lines of a comment do not depend on how its line ends are written. What is read from
them differs only where lines are joined again: in the texts of the comment and in the gaps of its
property declarations. The names of its tags, and the types and variables of its declarations, lie
on one line and stay the same.
-/

namespace DocCheck

open Text

section Texts

/-- The fields with the line ends of the gaps and of the comment written with carriage returns; type
and variable stay. -/
def PropertyFields.crlfTexts (f : PropertyFields) : PropertyFields :=
  { f with
    beforeType := f.beforeType.crlf
    beforeName := f.beforeName.crlf
    beforeComment := f.beforeComment.crlf
    comment := f.comment.crlf }

/-- The declaration with the line ends of its gaps and of its comment written with carriage returns;
tag, type and variable stay. -/
def Property.crlfTexts (p : Property) : Property :=
  { p with
    toPropertyFields := p.toPropertyFields.crlfTexts
    above := p.above.crlf }

/-- The content with its line ends written with carriage returns, the names in it as they are. -/
def Element.crlfTexts : Element → Element
  | leaf => leaf
  | single content => single content.crlf
  | keyValue value comment => keyValue value.crlf comment.crlf
  | property declaration => property declaration.crlfTexts

/-- The tag with the line ends above it and in its content written with carriage returns. -/
def Occurrence.crlfTexts (o : Occurrence) : Occurrence :=
  { o with above := o.above.crlf, element := o.element.crlfTexts }

/-- The comment with the line ends of its texts written with carriage returns; names, numbers and
the order of tags stay. -/
def Comment.crlfTexts (c : Comment) : Comment :=
  { c with
    short := c.short.crlf
    long := c.long.crlf
    between := c.between.crlf
    tags := c.tags.map Occurrence.crlfTexts }

end Texts

/-- The fields are found at the same places. -/
theorem PropertyFields.ofText_crlf (input : Text) :
    ofText input.crlf = (ofText input).crlfTexts := by
  have hgap : isGap '\r' = isGap '\n' := rfl
  -- A word has no line end in it.
  have hword (t : Text) : crlf (t.takeWhile (!isSpace ·)) = t.takeWhile (!isSpace ·) := by
    apply crlf_eq_self
    intro hmem
    have hspace := List.mem_takeWhile_imp hmem
    exact absurd hspace (by decide)
  simp only [ofText, takeWhile_crlf hgap, dropWhile_crlf hgap, takeWord_crlf, dropWord_crlf,
    trimEnd_crlf, hword]
  split
  · rfl
  · split <;> rfl

namespace RawTag

/-- A character that none of the lines of a tag has. -/
def Avoids (x : Char) (t : RawTag) : Prop := x ∉ t.name ∧ ∀ l ∈ t.rest :: t.continuation, x ∉ l

/-- The tags of a comment have only characters of its lines. -/
theorem avoids_of_mem_rawTags {x : Char} {lines : List Text} (hlines : ∀ l ∈ lines, x ∉ l)
    {t : RawTag} (ht : t ∈ rawTags lines) : t.Avoids x := by
  obtain ⟨front, l, behind, rfl, -, hheader, hcont⟩ := exists_line_of_mem_rawTags ht
  obtain ⟨margin, rfl, -, -⟩ := exists_margin_of_header? hheader
  have hline := hlines (margin ++ '@' :: (t.name ++ t.rest)) (by simp)
  simp only [List.mem_append, List.mem_cons, not_or] at hline
  refine ⟨hline.2.2.1, fun u hu => ?_⟩
  rcases List.mem_cons.mp hu with rfl | hu
  · exact hline.2.2.2
  · exact hlines u (by simp [hcont.subset hu])

variable {t : RawTag}

/-- The trimmed lines of a tag are joined with the line end of the source. -/
theorem joinedText_lineEnd (ht : t.Avoids '\n') :
    t.joinedText "\r\n" = (t.joinedText "\n").crlf := by
  rw [joinedText, joinedText, join_lineEnd, trim_crlf]
  intro p hp
  obtain ⟨l, hl, rfl⟩ := List.mem_map.mp hp
  exact fun hmem => ht.2 l hl (trim_subset l hmem)

/-- The lines of a declaration are joined with the line end of the source. -/
theorem exactText_lineEnd (ht : t.Avoids '\n') :
    t.exactText "\r\n" = (t.exactText "\n").crlf := by
  rw [exactText, exactText, join_lineEnd]
  intro p hp
  rcases List.mem_cons.mp hp with rfl | hp
  · exact ht.2 t.rest List.mem_cons_self
  · have hcont := (List.dropWhile_sublist _).subset (List.mem_reverse.mp hp)
    exact ht.2 p (List.mem_cons_of_mem _ (List.mem_reverse.mp hcont))

/-- The line ends above a tag are those of the source. -/
theorem above_lineEnd (t : RawTag) : t.above "\r\n" = (t.above "\n").crlf := times_lineEnd _

/-- A declaration is read alike, or the same part of it lacks its separator. -/
theorem property_lineEnd (ht : t.Avoids '\n') (rank : Nat) :
    t.property rank "\r\n" = (t.property rank "\n").map Property.crlfTexts := by
  have htype (f : PropertyFields) : f.crlfTexts.type = f.type := rfl
  simp only [property, exactText_lineEnd ht, PropertyFields.ofText_crlf, htype, above_lineEnd]
  split
  · rfl
  · split <;> rfl

/-- The content of a tag is read alike, or it is at fault in the same way. -/
theorem element_lineEnd (ht : t.Avoids '\n') (shape : Shape) (rank : Nat) :
    t.element shape rank "\r\n" = (t.element shape rank "\n").map Element.crlfTexts := by
  cases shape with
  | leaf =>
    simp only [element, joinedText_lineEnd ht, crlf_isEmpty]
    split <;> rfl
  | single => simp only [element, joinedText_lineEnd ht, Except.map, Element.crlfTexts]
  | keyValue =>
    simp only [element, joinedText_lineEnd ht, splitKeyValue, trim_crlf, takeWord_crlf,
      dropWord_crlf, Except.map, Element.crlfTexts]
  | property =>
    rw [element, element, property_lineEnd ht]
    cases t.property rank "\n" <;> rfl

end RawTag

/-- The tags are read alike; a tag that cannot be read is the same one. -/
theorem readTags_lineEnd (v : Vocabulary) (rank : Nat) {ts : List RawTag}
    (hts : ∀ t ∈ ts, t.Avoids '\n') :
    readTags v "\r\n" rank ts = (readTags v "\n" rank ts).map (List.map Occurrence.crlfTexts) := by
  -- The rank is generalised, as it grows with every declaration that is read.
  induction ts generalizing rank with
  | nil => rfl
  | cons t ts ih =>
    have ht := hts t List.mem_cons_self
    simp only [readTags, RawTag.element_lineEnd ht, RawTag.above_lineEnd,
      ih _ fun u hu => hts u (List.mem_cons_of_mem _ hu)]
    cases v.get? t.name with
    | none => rfl
    | some g =>
      dsimp only
      cases t.element g.shape rank "\n" with
      | error fault => rfl
      | ok element =>
        dsimp only [Except.map]
        cases readTags v "\n" (if g.shape = .property then rank + 1 else rank) ts with
        | error e => rfl
        | ok os => rfl

/-- Without the space behind its star a line is the end of itself. -/
theorem dropSpace_suffix (l : Text) : dropSpace l <:+ l := by
  unfold dropSpace
  split
  · exact List.suffix_cons _ _
  · exact List.suffix_rfl

/-- The description is read alike. -/
theorem readDescription_lineEnd {body : List Text} (hbody : ∀ l ∈ body, '\n' ∉ l) (start : Nat) :
    readDescription body start "\r\n" = (readDescription body start "\n").crlfTexts := by
  unfold readDescription
  dsimp only
  generalize htext : body.dropWhile isBlank = text
  have hsub : text ⊆ body := htext ▸ (List.dropWhile_suffix _).subset
  generalize hafter : text.dropWhile (!isBlank ·) = afterShort
  have hsubAfter : afterShort ⊆ text := hafter ▸ (List.dropWhile_suffix _).subset
  split
  · rfl
  · have hshort : ∀ p ∈ (text.takeWhile (!isBlank ·)).map trim, '\n' ∉ p := by
      intro p hp hmem
      obtain ⟨l, hl, rfl⟩ := List.mem_map.mp hp
      exact hbody l (hsub ((List.takeWhile_prefix _).subset hl)) (trim_subset l hmem)
    have hlong : ∀ p ∈ ((afterShort.dropWhile isBlank).reverse.dropWhile isBlank).reverse.map
        dropSpace, '\n' ∉ p := by
      intro p hp hmem
      obtain ⟨l, hl, rfl⟩ := List.mem_map.mp hp
      have hl' := (List.dropWhile_sublist _).subset (List.mem_reverse.mp hl)
      have hl'' := (List.dropWhile_sublist _).subset (List.mem_reverse.mp hl')
      exact hbody l (hsub (hsubAfter hl'')) ((dropSpace_suffix l).subset hmem)
    rw [Comment.crlfTexts, join_lineEnd hshort, join_lineEnd hlong, times_lineEnd]
    dsimp only
    split <;> rfl

/-- A comment is put together alike. -/
theorem Comment.assemble_lineEnd {lines : List Text} (hlines : ∀ l ∈ lines, '\n' ∉ l)
    (v : Vocabulary) (tags : List Occurrence) :
    assemble v "\r\n" lines (tags.map Occurrence.crlfTexts) =
      (assemble v "\n" lines tags).crlfTexts := by
  rw [assemble, readDescription_lineEnd fun l hl => hlines l (bodyLines_subset lines hl)]
  rfl

/-- Stripping gives the same lines. -/
theorem Margin.strip_crlf {raw : Text} (hraw : '\r' ∉ raw) :
    strip raw.crlf "\r\n" = strip raw "\n" := by
  rw [strip, splitOn_lineEnd_crlf hraw, strip]

/-- A stripped line holds no line feed. -/
theorem Margin.not_mem_of_mem_strip {raw l : Text} (hl : l ∈ strip raw "\n") : '\n' ∉ l :=
  fun hmem => not_infix_of_mem_strip (by decide) hl ((List.singleton_infix_iff _ _).mpr hmem)

/-- Sources with the same stripped lines are read alike; one that cannot be read fails at the same
tag. -/
theorem Comment.parse_of_strip_eq {raw raw' : Text}
    (hstrip : Margin.strip raw' "\r\n" = Margin.strip raw "\n") (v : Vocabulary) :
    Comment.parse raw' v "\r\n" = (Comment.parse raw v "\n").map Comment.crlfTexts := by
  have hlines : ∀ l ∈ Margin.strip raw "\n", '\n' ∉ l := fun l hl => Margin.not_mem_of_mem_strip hl
  rw [parse_eq, parse_eq, hstrip, readTags_lineEnd v 1 fun t ht =>
    RawTag.avoids_of_mem_rawTags hlines ht]
  cases readTags v "\n" 1 (rawTags (Margin.strip raw "\n")) with
  | error e => rfl
  | ok tags => exact congrArg Except.ok (assemble_lineEnd hlines v tags)

/-- The tag at which reading fails is written on one line. -/
theorem Comment.not_mem_tag_of_parse_error {raw : Text} {v : Vocabulary} {e : ParseError}
    (h : Comment.parse raw v "\n" = .error e) : '\n' ∉ e.tag := by
  obtain ⟨t, ht, -, hname⟩ := Comment.exists_rawTag_of_parse_error h
  rw [hname]
  exact (RawTag.avoids_of_mem_rawTags (fun l hl => Margin.not_mem_of_mem_strip hl) ht).1

/-- What reading a source with line feeds gives for a declaration: its words lie on one line, and
nothing in it is a carriage return. -/
structure Property.HasLineFeeds (p : Property) : Prop where
  type : '\n' ∉ p.type
  name : '\n' ∉ p.name
  above : '\r' ∉ p.above
  beforeComment : '\r' ∉ p.beforeComment
  comment : '\r' ∉ p.comment

/-- Line feeds have no carriage return in them. -/
theorem not_mem_times_newline (n : Nat) : '\r' ∉ times "\n" n := by
  intro hmem
  obtain ⟨t, ht, hr⟩ := List.mem_flatten.mp hmem
  rw [List.eq_of_mem_replicate ht] at hr
  exact absurd hr (by decide)

/-- Joining with line feeds adds no carriage return. -/
theorem not_mem_join_newline {ps : List Text} (h : ∀ p ∈ ps, '\r' ∉ p) : '\r' ∉ join "\n" ps := by
  induction ps with
  | nil => simp
  | cons p ps ih =>
    have hrest := ih fun q hq => h q (List.mem_cons_of_mem _ hq)
    have hp := h p List.mem_cons_self
    by_cases hps : ps = []
    · simpa [hps] using hp
    · rw [join_cons _ _ hps, List.mem_append, List.mem_append, not_or, not_or]
      exact ⟨hp, by decide, hrest⟩

/-- A declaration that was read with line feeds from lines without carriage returns. -/
theorem RawTag.hasLineFeeds_of_property {t : RawTag} (hreturn : t.Avoids '\r') {rank : Nat}
    {p : Property} (h : t.property rank "\n" = .ok p) : p.HasLineFeeds := by
  have htext : '\r' ∉ t.exactText "\n" := by
    apply not_mem_join_newline
    intro l hl
    rcases List.mem_cons.mp hl with rfl | hl
    · exact hreturn.2 t.rest List.mem_cons_self
    · have hcont := (List.dropWhile_sublist _).subset (List.mem_reverse.mp hl)
      exact hreturn.2 l (List.mem_cons_of_mem _ (List.mem_reverse.mp hcont))
  obtain ⟨blank, hfields, -⟩ := PropertyFields.exists_blank_ofText (t.exactText "\n")
  rw [hfields] at htext
  simp only [PropertyFields.render, List.mem_append, not_or] at htext
  obtain ⟨htype, hname⟩ := PropertyFields.words_ofText (t.exactText "\n")
  have hspace : isSpace '\n' ≠ false := by decide
  rw [property_eq_ok h]
  exact {
    type := fun h => hspace (htype _ h)
    name := fun h => hspace (hname _ h)
    above := not_mem_times_newline _
    beforeComment := htext.1.2.2.2.2.1
    comment := htext.1.2.2.2.2.2 }

/-- What reading a source with line feeds gives for a tag. -/
structure Occurrence.HasLineFeeds (o : Occurrence) : Prop where
  name : '\n' ∉ o.name
  declaration : ∀ p, o.element = .property p → p.HasLineFeeds

/-- What reading a source with line feeds gives: no name has a line end in it, and there are no
carriage returns between the texts and in the declarations. -/
structure Comment.HasLineFeeds (c : Comment) : Prop where
  tags : ∀ o ∈ c.tags, o.HasLineFeeds
  unknown : ∀ u ∈ c.unknown, '\n' ∉ u.name
  between : '\r' ∉ c.between

/-- The line ends between the texts are those of the source. -/
theorem not_mem_between_readDescription (body : List Text) (start : Nat) :
    '\r' ∉ (readDescription body start "\n").between := by
  unfold readDescription
  dsimp only
  split
  · simp
  · dsimp only
    split
    · simp
    · exact not_mem_times_newline _

namespace Comment

variable {raw : Text} {v : Vocabulary} {c : Comment}

/-- The declarations are the contents of tags. -/
theorem HasLineFeeds.properties (hc : c.HasLineFeeds) : ∀ p ∈ c.properties, p.HasLineFeeds := by
  intro p hp
  obtain ⟨o, ho, hdeclares⟩ := List.mem_filterMap.mp hp
  split at hdeclares
  · next q hq =>
    cases hdeclares
    exact (hc.tags o ho).declaration p hq
  · cases hdeclares

/-- A comment that was read from a source with line feeds. -/
theorem hasLineFeeds_of_parse (hraw : '\r' ∉ raw) (hparse : Comment.parse raw v "\n" = .ok c) :
    c.HasLineFeeds := by
  have hlines : ∀ l ∈ Margin.strip raw "\n", '\r' ∉ l := by
    intro l hl hmem
    obtain ⟨piece, hpiece, hpart⟩ := Margin.exists_piece_of_mem_strip hl
    exact hraw ((infix_of_mem_splitOn (by decide) hpiece).subset (hpart.subset hmem))
  have hfeed : ∀ t ∈ rawTags (Margin.strip raw "\n"), t.Avoids '\n' := fun t ht =>
    RawTag.avoids_of_mem_rawTags (fun l hl => Margin.not_mem_of_mem_strip hl) ht
  obtain ⟨tags, htags, rfl⟩ := exists_tags_of_parse hparse
  refine ⟨fun o ho => ?_, fun u hu => ?_, not_mem_between_readDescription _ _⟩
  · obtain ⟨t, ht, g, rank, element, -, helement, rfl⟩ := exists_rawTag_of_mem htags ho
    refine ⟨(hfeed t ht).1, ?_⟩
    rintro p rfl
    exact RawTag.hasLineFeeds_of_property (RawTag.avoids_of_mem_rawTags hlines ht)
      (RawTag.property_of_element helement).2
  · obtain ⟨t, ht, rfl⟩ := List.mem_map.mp hu
    exact (hfeed t (List.mem_of_mem_filter ht)).1

/-- Reading a source with carriage returns and line feeds gives what reading it with line feeds
gives, with the line ends changed in its texts; names, numbers, the order of tags and the tag at
which reading fails are the same. -/
theorem parse_crlf_eq_map_crlfTexts (hraw : '\r' ∉ raw) (v : Vocabulary) :
    Comment.parse raw.crlf v "\r\n" = (Comment.parse raw v "\n").map Comment.crlfTexts :=
  parse_of_strip_eq (Margin.strip_crlf hraw) v

/-- A comment with two paragraphs, a declaration and a content on two lines, and an unknown tag. -/
def twoLineTags : Text :=
  "/**\n * Short.\n *\n * Long\n * text.\n *\n * @property int\n *   $a A\n".toList ++
    " * @see Foo\n *   Bar\n * @todo Sort\n */".toList

/-- The gap in front of the variable and the content of the second tag get a carriage return; types
and names stay. -/
theorem parse_crlf_twoLineTags :
    '\r' ∉ twoLineTags ∧
      Comment.parse twoLineTags.crlf .classComment "\r\n" = .ok {
        short := "Short.", long := "Long\r\ntext.", between := "\r\n\r\n", breaksAfter := 2
        shortEnd := 1, firstTag := some 6
        tags := [
          ⟨"property", "properties", 6, "\r\n\r\n", .property {
            tag := "property", beforeType := " ", type := "int", beforeName := "\r\n   "
            name := "$a", beforeComment := " ", comment := "A", above := "\r\n\r\n", rank := 1
            line := 6 }⟩,
          ⟨"see", "sees", 8, "\r\n", .single "Foo\r\nBar"⟩]
        order := ["comment", "property", "see", "todo"]
        unknown := [⟨"todo", 10⟩] } := by
  have hraw : '\r' ∉ twoLineTags := by decide
  refine ⟨hraw, ?_⟩
  rw [parse_crlf_eq_map_crlfTexts hraw]
  decide +kernel

end Comment

end DocCheck
