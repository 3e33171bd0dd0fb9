import DocCheck.Proofs.Comment.Property
import DocCheck.Proofs.Text.Visible

/-!
# Reading keeps the text of a comment

Reading a comment cuts its lines into a short text, a long text and tags, and throws away white
space on the way. Nothing else is lost: the visible characters of the lines come back, in order, as
those of the short text, the long text and the tags with their contents. Each step of the reading
has its own conservation lemma here.
-/

namespace DocCheck

open Text

/-- The text of an element, its parts in the order in which they are written. -/
def Element.text : Element → Text
  | .leaf => []
  | .single content => content
  | .keyValue value comment => value ++ comment
  | .property declaration => declaration.type ++ declaration.name ++ declaration.comment

/-- A tag as it is written in a comment, up to white space. -/
def Occurrence.text (o : Occurrence) : Text := '@' :: (o.name ++ o.element.text)

/-- The visible characters of a header line and of the lines that belong to it. -/
def RawTag.visible (t : RawTag) : Text :=
  '@' :: (t.name.visible ++ (t.rest.visible ++ visibleAll t.continuation))

/-- A header line shows `@`, the name and the remainder. -/
theorem visible_of_header? {line name rest : Text} (h : header? line = some (name, rest)) :
    line.visible = '@' :: (name.visible ++ rest.visible) := by
  obtain ⟨margin, rfl, hmargin, -⟩ := exists_margin_of_header? h
  have hblank : margin.isBlank := isBlank_of_isGap fun c hc => isGap_of_isMargin (hmargin c hc)
  rw [visible_append, visible_of_isBlank hblank, List.nil_append,
    visible_cons_of_not_isSpace (by decide), visible_append]

/-- Grouping keeps the visible characters of the lines: those of the lines in front of the first
header come first, then those of the tags. -/
theorem RawTag.visible_group (blanks line : Nat) (ls : List Text) :
    visibleAll ls =
      visibleAll (group blanks line ls).1 ++ (group blanks line ls).2.flatMap RawTag.visible := by
  induction ls generalizing blanks line with
  | nil => rfl
  | cons l ls ih =>
    have hls := ih (if l.isBlank then blanks + 1 else 0) (line + 1)
    cases hheader : header? l with
    | none =>
      simp only [group, hheader, visibleAll_cons, List.append_assoc, ← hls]
    | some found =>
      obtain ⟨name, rest⟩ := found
      simp only [group, hheader, visibleAll_cons, visibleAll_nil, List.nil_append,
        List.flatMap_cons, RawTag.visible, visible_of_header? hheader, List.cons_append,
        List.append_assoc, ← hls]

section Content

variable {t : RawTag} {eol : Text}

/-- Trimming and joining the lines of a tag keeps their visible characters. -/
theorem RawTag.visible_joinedText (t : RawTag) (heol : eol.isBlank) :
    (t.joinedText eol).visible = t.rest.visible ++ visibleAll t.continuation := by
  rw [joinedText, visible_trim, visible_join heol, visibleAll_map visible_trim, visibleAll_cons]

/-- Joining the lines of a tag as they stand keeps their visible characters. -/
theorem RawTag.visible_exactText (t : RawTag) (heol : eol.isBlank) :
    (t.exactText eol).visible = t.rest.visible ++ visibleAll t.continuation := by
  rw [exactText, visible_join heol, visibleAll_cons, visibleAll_dropBlankEnd]

/-- The first word of a text and the remainder show all of it. -/
theorem visible_splitKeyValue (t : Text) :
    ((splitKeyValue t).1 ++ (splitKeyValue t).2).visible = t.visible := by
  simp only [splitKeyValue, visible_append, visible_trim]
  rw [← visible_append, List.takeWhile_append_dropWhile, visible_trim]

/-- Type, name and comment of a declaration show all of its text. -/
theorem PropertyFields.visible_ofText (input : Text) :
    ((ofText input).type ++ (ofText input).name ++ (ofText input).comment).visible =
      input.visible := by
  obtain ⟨blank, hinput, hblank⟩ := exists_blank_ofText input
  obtain ⟨htype, hname, hcomment⟩ := gaps_ofText input
  have hgap {gap : Text} (h : ∀ c ∈ gap, isGap c) : gap.visible = [] :=
    visible_of_isBlank (isBlank_of_isGap h)
  conv_rhs => rw [hinput]
  simp only [render, visible_append, hgap htype, hgap hname, hgap hcomment,
    visible_of_isBlank hblank, List.nil_append, List.append_nil, List.append_assoc]

/-- An element shows what the lines of its tag show, in every shape. -/
theorem RawTag.visible_element {shape : Shape} {rank : Nat} {element : Element}
    (heol : eol.isBlank) (h : t.element shape rank eol = .ok element) :
    element.text.visible = t.rest.visible ++ visibleAll t.continuation := by
  cases shape with
  | leaf =>
    simp only [RawTag.element] at h
    split at h
    · next hempty =>
      cases h
      rw [← t.visible_joinedText heol, List.isEmpty_iff.mp hempty]
      rfl
    · cases h
  | single =>
    cases h
    exact t.visible_joinedText heol
  | keyValue =>
    simp only [RawTag.element, Except.ok.injEq] at h
    rw [← h, ← t.visible_joinedText heol, Element.text, visible_splitKeyValue]
  | property =>
    simp only [RawTag.element, RawTag.property] at h
    split at h
    · cases h
    · split at h
      · cases h
      · cases h
        rw [Element.text, PropertyFields.visible_ofText, t.visible_exactText heol]

end Content

/-- The tags that were read show what their lines show. -/
theorem visible_of_readsAs {v : Vocabulary} {eol : Text} (heol : eol.isBlank) {ts : List RawTag}
    {os : List Occurrence} (h : List.Forall₂ (RawTag.ReadsAs v eol) ts os) :
    Text.visible (os.flatMap Occurrence.text) = ts.flatMap RawTag.visible := by
  induction h with
  | nil => rfl
  | cons hread _ ih =>
    obtain ⟨g, rank, element, -, helement, rfl⟩ := hread
    rw [List.flatMap_cons, List.flatMap_cons, visible_append, ih, Occurrence.text,
      visible_cons_of_not_isSpace (by decide), visible_append, RawTag.visible_element heol helement,
      RawTag.visible]

/-- The description shows what the lines of the body show. -/
theorem visible_readDescription {eol : Text} (heol : eol.isBlank) (body : List Text) (start : Nat) :
    ((readDescription body start eol).short ++ (readDescription body start eol).long).visible =
      visibleAll body := by
  rw [← visibleAll_dropWhile_isBlank body]
  generalize htext : body.dropWhile Text.isBlank = text
  have hspace (l : Text) : (dropSpace l).visible = l.visible := by
    unfold dropSpace
    split
    · rw [visible_cons_of_isSpace (by decide)]
    · rfl
  simp only [readDescription, htext]
  split
  · next hempty =>
    rw [List.isEmpty_iff.mp hempty]
    rfl
  · rw [visible_append, visible_join heol, visible_join heol, visibleAll_map visible_trim,
      visibleAll_map hspace, visibleAll_dropBlankEnd, visibleAll_dropWhile_isBlank,
      ← visibleAll_append, List.takeWhile_append_dropWhile]

/-- Leaving out a blank first and a blank last line loses nothing. -/
theorem visibleAll_contentLines (lines : List Text) :
    visibleAll (contentLines lines) = visibleAll lines := by
  obtain ⟨front, back, hlines, -, hfront, hback⟩ := exists_contentLines lines
  conv_rhs => rw [hlines]
  rw [visibleAll_append, visibleAll_append, visibleAll_of_isBlank hfront,
    visibleAll_of_isBlank hback, List.nil_append, List.append_nil]

/-- The lines from the first header on show the tags. -/
theorem visibleAll_tagLines (lines : List Text) :
    visibleAll (tagLines lines) = (rawTags lines).flatMap RawTag.visible := by
  rw [RawTag.visible_group (trailingBlanks (bodyLines lines)) (tagStart lines) (tagLines lines),
    group_fst_tagLines, visibleAll_nil, List.nil_append, rawTags]

/-- Reading loses, repeats and moves no text: if the vocabulary knows every tag, the visible
characters of the stripped lines are those of the short text, the long text and the tags. The
separator may be any white space. -/
theorem Comment.visible_parse {raw eol : Text} {v : Vocabulary} {c : Comment}
    (heol : eol.isBlank) (hparse : Comment.parse raw v eol = .ok c) (hknown : c.unknown = []) :
    visibleAll (Margin.strip raw eol) =
      Text.visible (c.short ++ c.long ++ c.tags.flatMap Occurrence.text) := by
  obtain ⟨tags, htags, rfl⟩ := Comment.exists_tags_of_parse hparse
  generalize Margin.strip raw eol = lines at *
  have hall : (rawTags lines).filter (fun t => (v.get? t.name).isSome) = rawTags lines := by
    have hnone : (rawTags lines).filter (fun t => (v.get? t.name).isNone) = [] :=
      List.map_eq_nil_iff.mp hknown
    apply List.filter_eq_self.mpr
    intro t ht
    rw [Option.isSome_iff_ne_none]
    simpa using List.filter_eq_nil_iff.mp hnone t ht
  have hread := forall₂_readTags htags
  rw [hall] at hread
  calc visibleAll lines
      = visibleAll (bodyLines lines) ++ visibleAll (tagLines lines) := by
        rw [← visibleAll_contentLines, ← bodyLines_append_tagLines, visibleAll_append]
    _ = _ := by
        rw [visibleAll_tagLines, ← visible_of_readsAs heol hread,
          ← visible_readDescription heol (bodyLines lines) (contentStart lines), ← visible_append]
        rfl

/-- A comment with descriptions, a property whose comment stands on its own lines, and a package. -/
def sampleComment : Text :=
  "/** Short.\n *\n * Long.\n *\n * @property int $a\n *     All\n *  of it.\n * @package Foo\n */"

/-- The blanks and line ends in and around the property go, the order of all else stays. -/
theorem Comment.visible_parse_property :
    ∃ c, Comment.parse sampleComment .classComment "\n" = .ok c ∧ c.unknown = [] ∧
      Text.visible (c.short ++ c.long ++ c.tags.flatMap Occurrence.text) =
        "Short.Long.@propertyint$aAllofit.@packageFoo".toList := by
  have hparse : Comment.parse sampleComment .classComment "\n" = .ok {
      short := "Short.", long := "Long.", between := "\n\n", breaksAfter := 2, firstTag := some 4
      tags := [
        ⟨"property", "properties", 4, "\n\n", .property {
          tag := "property", beforeType := " ", type := "int", beforeName := " ", name := "$a"
          beforeComment := "\n     ", comment := "All\n  of it.", above := "\n\n", rank := 1
          line := 4 }⟩,
        ⟨"package", "package", 7, "\n", .single "Foo"⟩]
      order := ["comment", "property", "package"] } := by decide +kernel
  refine ⟨_, hparse, rfl, ?_⟩
  rw [← Comment.visible_parse (by decide) hparse rfl]
  decide +kernel

end DocCheck
