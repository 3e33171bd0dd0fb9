import DocCheck.Proofs.Comment.Header
import Mathlib.Data.List.Basic
import Mathlib.Data.List.Forall2

/-!
# The parts of a comment

Reading works on the stripped lines alone. Its parts are named here: the content is the lines
without a blank first and a blank last one, the body is the content in front of the first header,
and the tags are the header lines with their continuation lines. Reading the tags gives one
occurrence for each tag of the vocabulary, in order.
-/

namespace DocCheck

/-- The lines of the description. -/
def bodyLines (lines : List Text) : List Text := (contentLines lines).takeWhile (!isHeader ·)

/-- The lines from the first tag header on. -/
def tagLines (lines : List Text) : List Text := (contentLines lines).dropWhile (!isHeader ·)

/-- The number of the first line behind the description. -/
def tagStart (lines : List Text) : Nat := contentStart lines + (bodyLines lines).length

/-- The tags of a comment, before the vocabulary gives them their shape. -/
def rawTags (lines : List Text) : List RawTag :=
  (RawTag.group (trailingBlanks (bodyLines lines)) (tagStart lines) (tagLines lines)).2

/-- The comment of the given lines with the given occurrences. -/
def Comment.assemble (v : Vocabulary) (eol : Text) (lines : List Text) (tags : List Occurrence) :
    Comment :=
  { readDescription (bodyLines lines) (contentStart lines) eol with
    firstTag := if (tagLines lines).isEmpty then none else some (tagStart lines)
    tags
    order := descriptionEntry :: (rawTags lines).map (·.name)
    unknown := ((rawTags lines).filter fun t => (v.get? t.name).isNone).map
      fun t => ⟨t.name, t.line⟩ }

/-- Reading strips the margin, reads the tags and assembles the comment. -/
theorem Comment.parse_eq (raw : Text) (v : Vocabulary) (eol : Text) :
    Comment.parse raw v eol =
      (readTags v eol 1 (rawTags (Margin.strip raw eol))).map
        (Comment.assemble v eol (Margin.strip raw eol)) := rfl

/-- A comment that was read is assembled from occurrences that were read. -/
theorem Comment.exists_tags_of_parse {raw : Text} {v : Vocabulary} {eol : Text} {c : Comment}
    (h : Comment.parse raw v eol = .ok c) :
    ∃ tags, readTags v eol 1 (rawTags (Margin.strip raw eol)) = .ok tags ∧
      c = Comment.assemble v eol (Margin.strip raw eol) tags := by
  rw [parse_eq] at h
  cases htags : readTags v eol 1 (rawTags (Margin.strip raw eol)) with
  | error e =>
    rw [htags] at h
    cases h
  | ok tags =>
    rw [htags] at h
    cases h
    exact ⟨tags, rfl, rfl⟩

section Lines

variable {lines : List Text}

/-- The content is the lines without a blank first and a blank last one. -/
theorem exists_contentLines (lines : List Text) :
    ∃ front back, lines = front ++ contentLines lines ++ back ∧
      front.length = contentStart lines ∧ (∀ l ∈ front, l.isBlank) ∧ ∀ l ∈ back, l.isBlank := by
  have hfront : lines = lines.take (contentStart lines) ++ lines.drop (contentStart lines) :=
    (List.take_append_drop _ _).symm
  have hlength : (lines.take (contentStart lines)).length = contentStart lines := by
    cases lines with
    | nil => rfl
    | cons l ls =>
      simp only [contentStart]
      split <;> simp
  have hblank : ∀ l ∈ lines.take (contentStart lines), l.isBlank := by
    cases lines with
    | nil => simp
    | cons l ls =>
      simp only [contentStart]
      split
      · next hl => simpa using hl
      · simp
  -- A blank last line is left out unless it is the only one.
  by_cases hlast :
      (1 < lines.length && (lines.drop (contentStart lines)).getLast?.any Text.isBlank) = true
  · have hcontent : contentLines lines = (lines.drop (contentStart lines)).dropLast := by
      simp only [contentLines, hlast, if_true]
    obtain ⟨l, hl, hlblank⟩ := (Option.any_eq_true _ _).mp (Bool.and_eq_true_iff.mp hlast).2
    refine ⟨_, [l], ?_, hlength, hblank, by simpa using hlblank⟩
    rw [hcontent, List.append_assoc, List.dropLast_append_getLast? l hl]
    exact hfront
  · have hcontent : contentLines lines = lines.drop (contentStart lines) := by
      simp only [contentLines, hlast]
      rfl
    exact ⟨_, [], by rw [hcontent, List.append_nil]; exact hfront, hlength, hblank, by simp⟩

/-- The content of the lines behind the first one: all but a blank last one. -/
def furtherContent (ls : List Text) : List Text :=
  if ls.getLast?.any Text.isBlank then ls.dropLast else ls

/-- Only the end of the lines behind the first one is left out of the content. -/
theorem furtherContent_isPrefix (ls : List Text) : furtherContent ls <+: ls := by
  unfold furtherContent
  split
  · exact List.dropLast_prefix ls
  · exact List.prefix_rfl

/-- The first line counts only if it has text. -/
theorem contentLines_cons (l : Text) (ls : List Text) :
    contentLines (l :: ls) = (if l.isBlank then [] else [l]) ++ furtherContent ls := by
  unfold furtherContent
  cases ls with
  | nil => cases hl : l.isBlank <;> simp [contentLines, contentStart, hl]
  | cons m ms =>
    cases hl : l.isBlank with
    | true => simp [contentLines, contentStart, hl]
    | false =>
      have hstart : contentStart (l :: m :: ms) = 0 := by simp [contentStart, hl]
      have hlong : 1 < (l :: m :: ms).length := by simp
      rw [contentLines, hstart, List.drop_zero, List.getLast?_cons_cons, List.dropLast_cons_cons]
      simp only [hlong, decide_true, Bool.true_and]
      split <;> rfl

/-- A blank last line does not count. -/
theorem contentLines_concat {last : Text} (h : last.isBlank) (l : Text) (ls : List Text) :
    contentLines (l :: (ls ++ [last])) = (if l.isBlank then [] else [l]) ++ ls := by
  rw [contentLines_cons, furtherContent, List.getLast?_concat, Option.any_some, if_pos h,
    List.dropLast_concat]

/-- The lines of content are those of the description and then those of the tags. -/
theorem bodyLines_append_tagLines (lines : List Text) :
    bodyLines lines ++ tagLines lines = contentLines lines := List.takeWhile_append_dropWhile

/-- The lines of the description are lines of the comment. -/
theorem bodyLines_subset (lines : List Text) : bodyLines lines ⊆ lines := by
  obtain ⟨front, back, hlines, -, -, -⟩ := exists_contentLines lines
  have hcontent : contentLines lines <:+: lines := ⟨front, back, hlines.symm⟩
  exact List.Subset.trans (List.takeWhile_prefix _).subset hcontent.subset

/-- The first line behind the description is a header. -/
theorem isHeader_of_tagLines_eq_cons {l : Text} {ls : List Text} (h : tagLines lines = l :: ls) :
    isHeader l = true := by
  have hhead := List.head?_dropWhile_not (!isHeader ·) (contentLines lines)
  rw [← tagLines, h] at hhead
  simpa using hhead

/-- The lines from the first header on belong to the tags: none is left in front of them. -/
theorem group_fst_tagLines (blanks line : Nat) (lines : List Text) :
    (RawTag.group blanks line (tagLines lines)).1 = [] := by
  cases htags : tagLines lines with
  | nil => rfl
  | cons l ls =>
    obtain ⟨found, hfound⟩ := Option.isSome_iff_exists.mp (isHeader_of_tagLines_eq_cons htags)
    simp only [RawTag.group, hfound]

/-- A line in the content of further lines is one of them, and the content behind it is the content
of the lines behind it. -/
theorem exists_of_furtherContent_eq {ls front behind : List Text} {l : Text}
    (h : furtherContent ls = front ++ l :: behind) :
    ∃ rest, ls = front ++ l :: rest ∧ furtherContent rest = behind := by
  unfold furtherContent at h
  split at h
  · next hblank =>
    obtain ⟨last, hlast, hblank⟩ := (Option.any_eq_true _ _).mp hblank
    refine ⟨behind ++ [last], ?_, ?_⟩
    · rw [← List.dropLast_append_getLast? last hlast, h]
      simp
    · rw [furtherContent, List.getLast?_concat, Option.any_some, if_pos hblank,
        List.dropLast_concat]
  · next hblank =>
    refine ⟨behind, h, ?_⟩
    rw [furtherContent, if_neg]
    intro hbehind
    obtain ⟨last, hlast, hlblank⟩ := (Option.any_eq_true _ _).mp hbehind
    refine hblank ((Option.any_eq_true _ _).mpr ⟨last, ?_, hlblank⟩)
    rw [h, List.getLast?_append, List.getLast?_cons, hlast]
    rfl

/-- A line of the content is a line of the comment. -/
theorem exists_of_contentLines_eq {front behind : List Text} {l : Text}
    (h : contentLines lines = front ++ l :: behind) :
    ∃ above rest, lines = above ++ l :: rest ∧ above.length = contentStart lines + front.length ∧
      furtherContent rest = behind := by
  cases lines with
  | nil => cases front <;> cases h
  | cons first ls =>
    rw [contentLines_cons] at h
    cases hfirst : first.isBlank with
    | true =>
      rw [if_pos hfirst, List.nil_append] at h
      obtain ⟨rest, rfl, hrest⟩ := exists_of_furtherContent_eq h
      refine ⟨first :: front, rest, rfl, ?_, hrest⟩
      simp [contentStart, hfirst, Nat.add_comm]
    | false =>
      rw [hfirst, if_neg Bool.false_ne_true, List.singleton_append] at h
      cases front with
      | nil =>
        obtain ⟨rfl, hbehind⟩ := List.cons_eq_cons.mp h
        exact ⟨[], ls, rfl, by simp [contentStart, hfirst], hbehind⟩
      | cons top front =>
        obtain ⟨rfl, hbehind⟩ := List.cons_eq_cons.mp h
        obtain ⟨rest, rfl, hrest⟩ := exists_of_furtherContent_eq hbehind
        exact ⟨first :: front, rest, rfl, by simp [contentStart, hfirst], hrest⟩

/-- A tag comes from a header line of the comment, has the number of that line, and its
continuation lines are the lines that follow, up to the next header or the end of the content. -/
theorem exists_header_of_mem_rawTags {t : RawTag} (h : t ∈ rawTags lines) :
    ∃ front l behind, lines = front ++ l :: behind ∧ t.line = front.length ∧
      header? l = some (t.name, t.rest) ∧
      t.continuation = (furtherContent behind).takeWhile (!isHeader ·) := by
  obtain ⟨front, l, behind, htags, hline, hheader, hcont⟩ := RawTag.exists_line_of_mem_group h
  have hcontent : contentLines lines = (bodyLines lines ++ front) ++ l :: behind := by
    rw [← bodyLines_append_tagLines, htags, List.append_assoc]
  obtain ⟨above, rest, hlines, hlength, rfl⟩ := exists_of_contentLines_eq hcontent
  refine ⟨above, l, rest, hlines, ?_, hheader, hcont⟩
  rw [hline, tagStart, hlength, List.length_append, Nat.add_assoc]

/-- The continuation lines of a tag stand directly behind its header line. -/
theorem exists_line_of_mem_rawTags {t : RawTag} (h : t ∈ rawTags lines) :
    ∃ front l behind, lines = front ++ l :: behind ∧ t.line = front.length ∧
      header? l = some (t.name, t.rest) ∧ t.continuation <+: behind := by
  obtain ⟨front, l, behind, hlines, hline, hheader, hcont⟩ := exists_header_of_mem_rawTags h
  refine ⟨front, l, behind, hlines, hline, hheader, ?_⟩
  rw [hcont]
  exact (List.takeWhile_prefix _).trans (furtherContent_isPrefix behind)

/-- Tags come in the order of their lines. -/
theorem pairwise_line_rawTags (lines : List Text) : (rawTags lines).Pairwise (·.line < ·.line) :=
  RawTag.pairwise_line_group _ _ _

end Lines

section Tags

variable {v : Vocabulary} {eol : Text} {rank : Nat} {ts : List RawTag}

/-- What a tag of the vocabulary is read as. -/
def RawTag.ReadsAs (v : Vocabulary) (eol : Text) (t : RawTag) (o : Occurrence) : Prop :=
  ∃ g rank element, v.get? t.name = some g ∧ t.element g.shape rank eol = .ok element ∧
    o = ⟨t.name, g.container, t.line, t.above eol, element⟩

/-- What reading the first tag can do: pass over it, or read it and go on with the next rank. -/
theorem readTags_cons_eq_ok {t : RawTag} {os : List Occurrence}
    (h : readTags v eol rank (t :: ts) = .ok os) :
    (v.get? t.name = none ∧ readTags v eol rank ts = .ok os) ∨
      ∃ g element os', v.get? t.name = some g ∧ t.element g.shape rank eol = .ok element ∧
        readTags v eol (if g.shape = .property then rank + 1 else rank) ts = .ok os' ∧
        os = ⟨t.name, g.container, t.line, t.above eol, element⟩ :: os' := by
  cases hg : v.get? t.name with
  | none =>
    simp only [readTags, hg] at h
    exact .inl ⟨rfl, h⟩
  | some g =>
    simp only [readTags, hg] at h
    cases helement : t.element g.shape rank eol with
    | error fault =>
      rw [helement] at h
      cases h
    | ok element =>
      simp only [helement] at h
      cases hrest : readTags v eol (if g.shape = .property then rank + 1 else rank) ts with
      | error e =>
        rw [hrest] at h
        cases h
      | ok os' =>
        rw [hrest] at h
        cases h
        exact .inr ⟨g, element, os', rfl, helement, hrest, rfl⟩

/-- A tag outside the vocabulary behind the others does not change what is read. -/
theorem readTags_concat {t : RawTag} (h : v.get? t.name = none) :
    readTags v eol rank (ts ++ [t]) = readTags v eol rank ts := by
  induction ts generalizing rank with
  | nil => simp only [List.nil_append, readTags, h]
  | cons u ts ih => simp only [List.cons_append, readTags, ih]

/-- Reading gives one occurrence for each tag of the vocabulary, in order. -/
theorem forall₂_readTags {os : List Occurrence} (h : readTags v eol rank ts = .ok os) :
    List.Forall₂ (RawTag.ReadsAs v eol) (ts.filter fun t => (v.get? t.name).isSome) os := by
  induction ts generalizing rank os with
  | nil =>
    cases h
    exact List.Forall₂.nil
  | cons t ts ih =>
    rcases readTags_cons_eq_ok h with ⟨hg, hrest⟩ | ⟨g, element, os', hg, helement, hrest, rfl⟩
    · simpa [hg] using ih hrest
    · rw [List.filter_cons_of_pos (by simp [hg])]
      exact List.Forall₂.cons ⟨g, rank, element, hg, helement, rfl⟩ (ih hrest)

private theorem exists_of_mem_forall₂ {α β : Type} {r : α → β → Prop} {as : List α} {bs : List β}
    (h : List.Forall₂ r as bs) {b : β} (hb : b ∈ bs) : ∃ a ∈ as, r a b := by
  induction h with
  | nil => cases hb
  | cons hab _ ih =>
    rcases List.mem_cons.mp hb with rfl | hb
    · exact ⟨_, List.mem_cons_self, hab⟩
    · obtain ⟨a, ha, hab⟩ := ih hb
      exact ⟨a, List.mem_cons_of_mem _ ha, hab⟩

/-- Every occurrence was read from a tag. -/
theorem exists_rawTag_of_mem {os : List Occurrence} (h : readTags v eol rank ts = .ok os)
    {o : Occurrence} (ho : o ∈ os) : ∃ t ∈ ts, t.ReadsAs v eol o := by
  obtain ⟨t, ht, hread⟩ := exists_of_mem_forall₂ (forall₂_readTags h) ho
  exact ⟨t, List.mem_of_mem_filter ht, hread⟩

/-- Every tag of the vocabulary was read as an occurrence. -/
theorem exists_occurrence_of_mem {os : List Occurrence} (h : readTags v eol rank ts = .ok os)
    {t : RawTag} (ht : t ∈ ts) (hname : (v.get? t.name).isSome) : ∃ o ∈ os, t.ReadsAs v eol o :=
  exists_of_mem_forall₂ (forall₂_readTags h).flip (List.mem_filter.mpr ⟨ht, hname⟩)

/-- The occurrences stand in the order of the tags they were read from. -/
theorem pairwise_line_readTags {os : List Occurrence} (h : readTags v eol rank ts = .ok os)
    (hts : ts.Pairwise (·.line < ·.line)) : os.Pairwise (·.line < ·.line) := by
  have hlines : (ts.filter fun t => (v.get? t.name).isSome).map (·.line) = os.map (·.line) := by
    rw [← List.forall₂_eq_eq_eq, List.forall₂_map_left_iff, List.forall₂_map_right_iff]
    apply (forall₂_readTags h).imp
    rintro t o ⟨g, rank, element, -, -, rfl⟩
    rfl
  rw [← List.pairwise_map, ← hlines, List.pairwise_map]
  exact hts.filter _

/-- Reading fails at a tag of the comment. -/
theorem exists_rawTag_of_error {e : ParseError} (h : readTags v eol rank ts = .error e) :
    ∃ t ∈ ts, e.line = t.line ∧ e.tag = t.name := by
  induction ts generalizing rank with
  | nil => cases h
  | cons t ts ih =>
    have hbehind {r : Nat} (hrest : readTags v eol r ts = .error e) :
        ∃ t' ∈ t :: ts, e.line = t'.line ∧ e.tag = t'.name := by
      obtain ⟨t', ht', he⟩ := ih hrest
      exact ⟨t', List.mem_cons_of_mem _ ht', he⟩
    cases hg : v.get? t.name with
    | none =>
      simp only [readTags, hg] at h
      exact hbehind h
    | some g =>
      simp only [readTags, hg] at h
      cases helement : t.element g.shape rank eol with
      | error fault =>
        rw [helement] at h
        cases h
        exact ⟨t, List.mem_cons_self, rfl, rfl⟩
      | ok element =>
        simp only [helement] at h
        cases hrest : readTags v eol (if g.shape = .property then rank + 1 else rank) ts with
        | error e' =>
          rw [hrest] at h
          cases h
          exact hbehind hrest
        | ok os' =>
          rw [hrest] at h
          cases h

/-- A comment that cannot be read fails at one of its tags. -/
theorem Comment.exists_rawTag_of_parse_error {raw : Text} {e : ParseError}
    (h : Comment.parse raw v eol = .error e) :
    ∃ t ∈ rawTags (Margin.strip raw eol), e.line = t.line ∧ e.tag = t.name := by
  rw [parse_eq] at h
  cases htags : readTags v eol 1 (rawTags (Margin.strip raw eol)) with
  | ok tags =>
    rw [htags] at h
    cases h
  | error e' =>
    rw [htags] at h
    cases h
    exact exists_rawTag_of_error htags

end Tags

end DocCheck
