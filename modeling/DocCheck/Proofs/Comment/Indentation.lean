import DocCheck.Proofs.Comment.Description
import DocCheck.Proofs.Comment.Draft

/-!
# Indentation and trailing blanks do not matter

The spaces and tabs at the ends of the physical lines of a comment are not seen by reading. Behind
its margin a line is trimmed at the end, so stripping a line depends on what stands between margin
and trailing white space. Only a first line without an opener keeps its margin when it is stripped,
and there reading passes over it: it is the first line of the short text, which is trimmed, or a tag
header.
-/

namespace DocCheck

open Text

/-- A line without the spaces and tabs at its ends. -/
def Text.trimMargin (l : Text) : Text := (l.dropWhile isMargin).rdropWhile isMargin

/-- A line without the spaces and tabs in front and without the white space behind. -/
def Text.core (l : Text) : Text := trimEnd (l.dropWhile isMargin)

section Margin

/-- The margin of a line is white space. -/
theorem isBlank_takeMargin (l : Text) : isBlank (l.takeWhile isMargin) := by
  rw [isBlank, List.all_eq_true]
  intro c hc
  exact isSpace_of_isGap (isGap_of_isMargin (List.mem_takeWhile_imp hc))

/-- A line is its margin and what stands behind it. -/
theorem takeMargin_append_dropMargin (l : Text) :
    l.takeWhile isMargin ++ l.dropWhile isMargin = l := List.takeWhile_append_dropWhile

/-- A line is blank exactly if it is blank behind its margin. -/
theorem isBlank_dropMargin (l : Text) : isBlank (l.dropWhile isMargin) = l.isBlank := by
  have hmargin := isBlank_takeMargin l
  conv_rhs => rw [← takeMargin_append_dropMargin l]
  rw [isBlank] at hmargin
  rw [isBlank, isBlank, List.all_append, hmargin, Bool.true_and]

/-- Trimming takes the margin as well. -/
theorem trim_dropMargin (l : Text) : trim (l.dropWhile isMargin) = l.trim := by
  conv_rhs => rw [← takeMargin_append_dropMargin l]
  exact (trim_append_of_isBlank (isBlank_takeMargin l) _).symm

/-- The margin in front of a tag is of no account. -/
theorem header?_dropMargin (l : Text) : header? (l.dropWhile isMargin) = header? l := by
  rw [header?, List.dropWhile_idempotent, header?]

/-- Trimming the end and dropping the margin can be exchanged. -/
theorem dropMargin_trimEnd (l : Text) : l.trimEnd.dropWhile isMargin = l.core := by
  have hl := takeMargin_append_dropMargin l
  have hmargin := isBlank_takeMargin l
  rw [core]
  generalize hrest : l.dropWhile isMargin = rest at hl ⊢
  have hhead : ∀ c ∈ rest.head?, isMargin c = false := by
    rw [← dropWhile_eq_self_iff_head?, ← hrest, List.dropWhile_idempotent]
  cases hblank : isBlank rest with
  | true =>
    have hnil : l.trimEnd = [] := by
      rw [← hl, trimEnd_append_of_isBlank _ hblank, trimEnd_eq_nil_iff.mpr hmargin]
    rw [hnil, trimEnd_eq_nil_iff.mpr hblank]
    rfl
  | false =>
    rw [← hl, trimEnd_append_of_not_isBlank _ hblank,
      List.dropWhile_append_of_pos fun c hc => List.mem_takeWhile_imp hc,
      dropWhile_eq_self_iff_head?]
    obtain ⟨behind, hbehind⟩ := trimEnd_isPrefix rest
    intro c hc
    refine hhead c ?_
    rw [← hbehind, List.head?_append_of_ne_nil _ (by rintro h; simp [h] at hc)]
    exact hc

end Margin

section Core

/-- The core of a line has no margin. -/
theorem dropMargin_core (l : Text) : l.core.dropWhile isMargin = l.core := by
  rw [← dropMargin_trimEnd, List.dropWhile_idempotent]

/-- The core of a line has no space at its end. -/
theorem trimEnd_core (l : Text) : l.core.trimEnd = l.core := trimEnd_trimEnd _

/-- Nothing is left to take off a core. -/
theorem core_core (l : Text) : l.core.core = l.core := by
  rw [core, dropMargin_core, trimEnd_core]

/-- Space at the end of a line is no part of its core. -/
theorem core_trimEnd (l : Text) : l.trimEnd.core = l.core := by
  rw [← dropMargin_trimEnd, trimEnd_trimEnd, dropMargin_trimEnd]

/-- A margin in front of a line is not part of its core. -/
theorem core_append_of_margin {margin : Text} (h : ∀ c ∈ margin, isMargin c) (l : Text) :
    core (margin ++ l) = l.core := by
  rw [core, List.dropWhile_append_of_pos h, core]

/-- The core of a line is a part of what stands between its margins. -/
theorem trimEnd_trimMargin (l : Text) : l.trimMargin.trimEnd = l.core := by
  have hspaces : isBlank ((l.dropWhile isMargin).rtakeWhile isMargin) := by
    rw [isBlank, List.all_eq_true]
    intro c hc
    exact isSpace_of_isGap (isGap_of_isMargin (List.mem_rtakeWhile_imp hc))
  rw [trimMargin, ← trimEnd_append_of_isBlank _ hspaces, List.rdropWhile_append_rtakeWhile, core]

end Core

namespace Margin

/-- Without its margin a further line loses a star, if it has one. -/
theorem dropStar_eq (l : Text) :
    dropStar l = (after? (l.dropWhile isMargin) "*").getD (l.dropWhile isMargin) := by
  unfold dropStar
  split
  · next rest hrest =>
    have hafter : after? ('*' :: rest) "*" = some rest := after?_eq_some_iff.mpr rfl
    rw [hrest, hafter, Option.getD_some]
  · next hrest =>
    cases hafter : after? (l.dropWhile isMargin) "*" with
    | none => rfl
    | some rest => exact absurd (after?_eq_some_iff.mp hafter) (hrest rest)

/-- What is left of a further line depends on its core. -/
theorem trimEnd_dropStar (l : Text) : (dropStar l).trimEnd = dropStar l.core := by
  have hstar : trimEnd "*" = "*" := by decide
  rw [dropStar_eq, dropStar_eq, dropMargin_core, core, after?_trimEnd hstar]
  cases after? (l.dropWhile isMargin) "*" <;> rfl

/-- What is left of a first line depends on its core, up to the margin. -/
theorem core_dropOpener (l : Text) : (dropOpener l).core = (dropOpener l.core).core := by
  have hopener : trimEnd "/**" = "/**" := by decide
  have hafter : after? (l.core.dropWhile isMargin) "/**" =
      (after? (l.dropWhile isMargin) "/**").map trimEnd := by
    rw [dropMargin_core, core, after?_trimEnd hopener]
  rw [dropOpener, dropOpener, hafter]
  cases after? (l.dropWhile isMargin) "/**" with
  | none => exact (core_core l).symm
  | some rest => exact (core_trimEnd rest).symm

/-- A closing marker is taken off with the space behind it. -/
theorem dropCloser_of_eq {l front : Text} (h : l.trimEnd = front ++ ['*', '/']) :
    dropCloser l = front := by
  simp [dropCloser, h]

/-- A line without a closing marker loses only the space at its end. -/
theorem dropCloser_of_not_suffix {l : Text} (h : ¬ ['*', '/'] <:+ l.trimEnd) :
    dropCloser l = l.trimEnd := by
  unfold dropCloser
  split
  · next rest hrest =>
    refine absurd ⟨rest.reverse, ?_⟩ h
    rw [← List.reverse_reverse l.trimEnd, hrest]
    simp
  · rfl

/-- A closer does not reach into the margin. -/
theorem suffix_of_suffix_append {margin l : Text} (hmargin : ∀ c ∈ margin, isMargin c)
    (hne : l ≠ []) (h : ['*', '/'] <:+ margin ++ l) : ['*', '/'] <:+ l := by
  rcases List.suffix_or_suffix_of_suffix h (List.suffix_append margin l) with hl | hl
  · exact hl
  · -- The line is a part of the closer; were it the slash alone, the star would end the margin.
    obtain ⟨front, hfront⟩ := hl
    cases front with
    | nil => exact ⟨[], hfront.symm⟩
    | cons c front =>
      cases front with
      | nil =>
        obtain ⟨-, rfl⟩ := List.cons_eq_cons.mp hfront
        obtain ⟨before, hbefore⟩ := h
        have hmem : '*' ∈ margin := by
          have hinit : before ++ ['*'] = margin := by
            have hslash : (before ++ ['*']) ++ ['/'] = margin ++ ['/'] := by simpa using hbefore
            exact List.append_cancel_right hslash
          rw [← hinit]
          simp
        exact absurd (hmargin '*' hmem) (by decide)
      | cons d front =>
        have hshort := congrArg List.length hfront
        have hpos := List.length_pos_of_ne_nil hne
        simp only [List.length_append, List.length_cons, List.length_nil] at hshort
        omega

/-- What is left of a last line depends on its core, up to the margin. -/
theorem core_dropCloser (l : Text) : (dropCloser l).core = (dropCloser l.core).core := by
  have hl := takeMargin_append_dropMargin l
  have hmargin : ∀ c ∈ l.takeWhile isMargin, isMargin c := fun c hc => List.mem_takeWhile_imp hc
  cases hblank : l.isBlank with
  | true =>
    have hcore : l.core = [] := by
      rw [core, trimEnd_eq_nil_iff, isBlank_dropMargin, hblank]
    have hnil : dropCloser l = [] := by simp [dropCloser, trimEnd_eq_nil_iff.mpr hblank]
    rw [hcore, hnil]
    rfl
  | false =>
    have hrest : isBlank (l.dropWhile isMargin) = false := by rw [isBlank_dropMargin, hblank]
    have htrim : l.trimEnd = l.takeWhile isMargin ++ l.core := by
      conv_lhs => rw [← hl, trimEnd_append_of_not_isBlank _ hrest]
      rfl
    have hne : l.core ≠ [] := by
      intro hnil
      rw [core, trimEnd_eq_nil_iff, hrest] at hnil
      cases hnil
    -- Margin and core of the line are known, and a closing marker can only stand at the end of the
    -- core.
    by_cases hcloser : ['*', '/'] <:+ l.core
    · obtain ⟨front, hfront⟩ := hcloser
      have hcore : dropCloser l.core = front := dropCloser_of_eq (by rw [trimEnd_core, hfront])
      have hline : dropCloser l = l.takeWhile isMargin ++ front :=
        dropCloser_of_eq (by rw [htrim, ← hfront, List.append_assoc])
      rw [hcore, hline, core_append_of_margin hmargin]
    · have hcore : dropCloser l.core = l.core := by
        rw [dropCloser_of_not_suffix (by rwa [trimEnd_core]), trimEnd_core]
      have hline : dropCloser l = l.takeWhile isMargin ++ l.core := by
        rw [← htrim]
        apply dropCloser_of_not_suffix
        rw [htrim]
        exact fun h => hcloser (suffix_of_suffix_append hmargin hne h)
      rw [hcore, hline, core_append_of_margin hmargin]

/-- The cores of the lines decide what is left of them without the closer. -/
theorem map_core_dropLastCloser (ls : List Text) :
    (dropLastCloser ls).map core = (dropLastCloser (ls.map core)).map core := by
  fun_induction dropLastCloser ls with
  | case1 => rfl
  | case2 line =>
    rw [List.map_singleton, core_dropCloser]
    rfl
  | case3 line lines hlines ih =>
    cases lines with
    | nil => exact absurd rfl hlines
    | cons m ms =>
      rw [List.map_cons, ih, ← core_core line]
      rfl

/-- Up to the margin of the first line, stripping depends on the cores of the lines. -/
theorem modifyHead_stripLines (ls : List Text) :
    (stripLines ls).modifyHead (List.dropWhile isMargin) =
      match (dropLastCloser ls).map core with
      | [] => []
      | first :: rest => (dropOpener first).core :: rest.map dropStar := by
  unfold stripLines
  cases dropLastCloser ls with
  | nil => rfl
  | cons first rest =>
    simp only [List.modifyHead_cons, List.map_cons, List.map_map, dropMargin_trimEnd,
      trimEnd_dropStar, core_dropOpener first]
    rfl

end Margin

section FirstLine

variable {l : Text}

/-- A line with text in front does not change the number of blank lines at the end. -/
theorem trailingBlanks_cons (h : l.isBlank = false) (ls : List Text) :
    trailingBlanks (l :: ls) = trailingBlanks ls := by
  rw [trailingBlanks, List.reverse_cons, List.takeWhile_append, trailingBlanks]
  split <;> simp_all

/-- The margin of a first line with text is not part of the description. -/
theorem readDescription_dropMargin (h : l.isBlank = false) (ls : List Text) (start : Nat)
    (eol : Text) :
    readDescription (l.dropWhile isMargin :: ls) start eol =
      readDescription (l :: ls) start eol := by
  have hdrop : isBlank (l.dropWhile isMargin) = false := by rw [isBlank_dropMargin, h]
  simp [readDescription, h, hdrop, trim_dropMargin, trailingBlanks_cons]

/-- A first line belongs to the description unless it is blank or a header. -/
theorem bodyLines_cons (l : Text) (ls : List Text) :
    bodyLines (l :: ls) =
      if l.isBlank then (furtherContent ls).takeWhile (!isHeader ·)
      else if isHeader l then [] else l :: (furtherContent ls).takeWhile (!isHeader ·) := by
  rw [bodyLines, contentLines_cons]
  cases hblank : l.isBlank with
  | true => rfl
  | false => cases hheader : isHeader l <;> simp [hheader]

/-- A first line belongs to the tags if it is a header. -/
theorem tagLines_cons (l : Text) (ls : List Text) :
    tagLines (l :: ls) =
      if l.isBlank then (furtherContent ls).dropWhile (!isHeader ·)
      else if isHeader l then l :: furtherContent ls
      else (furtherContent ls).dropWhile (!isHeader ·) := by
  rw [tagLines, contentLines_cons]
  cases hblank : l.isBlank with
  | true => rfl
  | false => cases hheader : isHeader l <;> simp [hheader]

/-- A line opens a tag with any margin or with none. -/
theorem isHeader_dropMargin (l : Text) : isHeader (l.dropWhile isMargin) = isHeader l := by
  rw [isHeader, header?_dropMargin, isHeader]

/-- The margin of the first line does not decide where the content starts. -/
theorem contentStart_dropMargin (l : Text) (ls : List Text) :
    contentStart (l.dropWhile isMargin :: ls) = contentStart (l :: ls) := by
  have hblank := isBlank_dropMargin l
  cases hl : l.isBlank <;> simp [contentStart, hblank, hl]

/-- The margin of the first line does not change how many lines the description has. -/
theorem length_bodyLines_dropMargin (l : Text) (ls : List Text) :
    (bodyLines (l.dropWhile isMargin :: ls)).length = (bodyLines (l :: ls)).length := by
  simp only [bodyLines_cons, isBlank_dropMargin, isHeader_dropMargin]
  split
  · rfl
  · split <;> rfl

/-- The margin of the first line does not change the blank lines at the end of the description. -/
theorem trailingBlanks_bodyLines_dropMargin (l : Text) (ls : List Text) :
    trailingBlanks (bodyLines (l.dropWhile isMargin :: ls)) =
      trailingBlanks (bodyLines (l :: ls)) := by
  simp only [bodyLines_cons, isBlank_dropMargin, isHeader_dropMargin]
  split
  · rfl
  · next hblank =>
    have hl : l.isBlank = false := Bool.eq_false_iff.mpr hblank
    split
    · rfl
    · rw [trailingBlanks_cons (by rwa [isBlank_dropMargin]), trailingBlanks_cons hl]

/-- The margin of the first line does not decide whether there are tags. -/
theorem isEmpty_tagLines_dropMargin (l : Text) (ls : List Text) :
    (tagLines (l.dropWhile isMargin :: ls)).isEmpty = (tagLines (l :: ls)).isEmpty := by
  simp only [tagLines_cons, isBlank_dropMargin, isHeader_dropMargin]
  split
  · rfl
  · split <;> rfl

/-- The margin of a header is not part of its tag. -/
theorem group_tagLines_dropMargin (blanks line : Nat) (l : Text) (ls : List Text) :
    RawTag.group blanks line (tagLines (l.dropWhile isMargin :: ls)) =
      RawTag.group blanks line (tagLines (l :: ls)) := by
  simp only [tagLines_cons, isBlank_dropMargin, isHeader_dropMargin]
  split
  · rfl
  · split
    · next hheader =>
      obtain ⟨⟨name, rest⟩, hfound⟩ := Option.isSome_iff_exists.mp hheader
      rw [RawTag.group_cons_of_header hfound,
        RawTag.group_cons_of_header ((header?_dropMargin l).trans hfound)]
    · rfl

/-- The margin of the first line is not read into the description. -/
theorem readDescription_bodyLines_dropMargin (l : Text) (ls : List Text) (start : Nat)
    (eol : Text) :
    readDescription (bodyLines (l.dropWhile isMargin :: ls)) start eol =
      readDescription (bodyLines (l :: ls)) start eol := by
  simp only [bodyLines_cons, isBlank_dropMargin, isHeader_dropMargin]
  split
  · rfl
  · next hblank =>
    split
    · rfl
    · exact readDescription_dropMargin (Bool.eq_false_iff.mpr hblank) _ start eol

/-- The margin of the first line does not move the tags. -/
theorem tagStart_dropMargin (l : Text) (ls : List Text) :
    tagStart (l.dropWhile isMargin :: ls) = tagStart (l :: ls) := by
  rw [tagStart, contentStart_dropMargin, length_bodyLines_dropMargin, tagStart]

/-- The tags do not depend on the margin of the first line. -/
theorem rawTags_modifyHead (lines : List Text) :
    rawTags (lines.modifyHead (List.dropWhile isMargin)) = rawTags lines := by
  cases lines with
  | nil => rfl
  | cons l ls =>
    rw [List.modifyHead_cons, rawTags, trailingBlanks_bodyLines_dropMargin, tagStart_dropMargin,
      group_tagLines_dropMargin, rawTags]

/-- A comment is put together without the margin of the first line. -/
theorem Comment.assemble_modifyHead (v : Vocabulary) (eol : Text) (lines : List Text) :
    assemble v eol (lines.modifyHead (List.dropWhile isMargin)) = assemble v eol lines := by
  funext tags
  have htags := rawTags_modifyHead lines
  cases lines with
  | nil => rfl
  | cons l ls =>
    rw [List.modifyHead_cons] at htags ⊢
    rw [assemble, contentStart_dropMargin, readDescription_bodyLines_dropMargin,
      isEmpty_tagLines_dropMargin, tagStart_dropMargin, htags, assemble]

end FirstLine

namespace Comment

variable {eol : Text}

/-- Texts whose stripped lines agree up to the margin of the first one are read alike. -/
theorem parse_eq_of_modifyHead_strip {raw raw' : Text}
    (h : (Margin.strip raw eol).modifyHead (List.dropWhile isMargin) =
      (Margin.strip raw' eol).modifyHead (List.dropWhile isMargin)) (v : Vocabulary) :
    Comment.parse raw v eol = Comment.parse raw' v eol := by
  rw [parse_eq, parse_eq, ← rawTags_modifyHead, ← assemble_modifyHead, h, rawTags_modifyHead,
    assemble_modifyHead]

/-- Lines that differ only in the spaces and tabs at their ends are read alike: as the same comment,
or with the same tag that cannot be read. -/
theorem parse_eq_of_map_trimMargin_eq (heol : eol.IsLineEnd) (v : Vocabulary) {ls ms : List Text}
    (hls : ∀ l ∈ ls, l.OneLine) (hms : ∀ m ∈ ms, m.OneLine)
    (h : ls.map Text.trimMargin = ms.map Text.trimMargin) :
    Comment.parse (Text.join eol ls) v eol = Comment.parse (Text.join eol ms) v eol := by
  by_cases hne : ls = []
  · rw [hne, List.map_nil] at h
    rw [hne, List.map_eq_nil_iff.mp h.symm]
  · have hne' : ms ≠ [] := by
      rintro rfl
      exact hne (List.map_eq_nil_iff.mp h)
    have hcores : ls.map Text.core = ms.map Text.core := by
      have htrim := congrArg (List.map Text.trimEnd) h
      simpa only [List.map_map, Function.comp_def, trimEnd_trimMargin] using htrim
    apply parse_eq_of_modifyHead_strip
    rw [Margin.strip_join heol.headUnique hne fun l hl => Text.OneLine.not_infix (hls l hl) heol,
      Margin.strip_join heol.headUnique hne' fun m hm => Text.OneLine.not_infix (hms m hm) heol,
      Margin.modifyHead_stripLines, Margin.modifyHead_stripLines, Margin.map_core_dropLastCloser,
      hcores, ← Margin.map_core_dropLastCloser]

/-- A comment whose closer stands behind the text of its last line. -/
def indentedLines : List Text :=
  ["/** Short.", " *", " * @property int", " *     $a A */"]

/-- The same comment with other blanks around its lines. -/
def shiftedLines : List Text :=
  ["\t/** Short. ", "*\t", "\t * @property int  ", "   *     $a A */\t"]

/-- The blanks behind the star of the last line stay: they are the gap in front of the name. -/
theorem parse_eq_shiftedLines :
    (∀ l ∈ indentedLines, l.OneLine) ∧ (∀ l ∈ shiftedLines, l.OneLine) ∧
      indentedLines.map Text.trimMargin = shiftedLines.map Text.trimMargin ∧
      Comment.parse (Text.join "\n" shiftedLines) .classComment "\n" = .ok {
        short := "Short.", breaksAfter := 2, firstTag := some 2
        tags := [⟨"property", "properties", 2, "\n\n", .property {
          tag := "property", beforeType := " ", type := "int", beforeName := "\n     ", name := "$a"
          beforeComment := " ", comment := "A", above := "\n\n", rank := 1, line := 2 }⟩]
        order := ["comment", "property"] } := by
  have hindented : ∀ l ∈ indentedLines, l.OneLine := by decide
  have hshifted : ∀ l ∈ shiftedLines, l.OneLine := by decide
  have htrim : indentedLines.map Text.trimMargin = shiftedLines.map Text.trimMargin := by decide
  refine ⟨hindented, hshifted, htrim, ?_⟩
  rw [← parse_eq_of_map_trimMargin_eq (.inl rfl) .classComment hindented hshifted htrim]
  decide +kernel

end Comment

end DocCheck
