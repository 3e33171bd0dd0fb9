import DocCheck.Proofs.Comment.Draft
import DocCheck.Proofs.Rule.Stage

/-!
# Tags outside the vocabulary

A tag outside the vocabulary may be added to a comment without harm. Put behind the other tags, it
ends the continuation lines of the last of them where the closer ended them before, so every other
tag is read as it was. Its name is the last one of the order and thus moves no place of another
name: the same issues are found, and only a missing tag, which is reported where the comment ends,
is reported one line further down.
-/

namespace DocCheck

/-- A tag on a line of its own, as it is written in a comment. -/
def tagLine (name text : Text) : Text := " * @" ++ (name ++ ' ' :: text)

section Line

variable {name : Text} (hchars : name.all isTagChar)
include hchars

/-- The line of a tag is one line. -/
theorem oneLine_tagLine {text : Text} (htext : text.OneLine) : (tagLine name text).OneLine := by
  refine Text.oneLine_append.mpr ⟨by decide, Text.oneLine_append.mpr ⟨?_, ?_⟩⟩
  · exact Text.oneLine_of_all_isTagChar hchars
  · exact Text.oneLine_append (t := [' ']).mpr ⟨by decide, htext⟩

/-- Behind its star the line is the header of the tag. -/
theorem header?_tagLine (hne : name ≠ []) (text : Text) :
    header? (Margin.dropStar (tagLine name text)).trimEnd =
      some (name, Text.trimEnd (' ' :: text)) := by
  have hstar : Margin.dropStar (tagLine name text) = " @" ++ name ++ ' ' :: text := by
    simp [tagLine, Margin.dropStar, isMargin]
  have hend : Text.trimEnd (" @" ++ name) = " @" ++ name :=
    Text.trimEnd_append hne (Text.trimEnd_of_all_isTagChar hchars)
  rw [hstar, Text.trimEnd_append_of_trimEnd_eq hend, List.append_assoc]
  refine header?_name hne (List.all_eq_true.mp hchars) fun c hc => ?_
  -- What is left of the text is empty or starts with the space behind the name.
  obtain ⟨blanks, hblanks⟩ := Text.trimEnd_isPrefix (' ' :: text)
  obtain ⟨rest, hrest⟩ := List.head?_eq_some_iff.mp hc
  rw [hrest, List.cons_append, List.cons.injEq] at hblanks
  rw [hblanks.1]
  decide

end Line

namespace Margin

/-- A line in front of the closer is stripped of its star; the other lines stay as they are. -/
theorem exists_strip_insert {raw eol closer l : Text} {ls : List Text} (heol : eol.IsLineEnd)
    (hraw : raw.splitOn eol = ls ++ [closer]) (hne : ls ≠ []) (hl : l.OneLine) :
    ∃ first inner last, inner.length + 1 = ls.length ∧
      strip raw eol = first :: (inner ++ [last]) ∧
      strip (Text.join eol (ls ++ [l, closer])) eol =
        first :: (inner ++ [(dropStar l).trimEnd, last]) := by
  obtain ⟨first, ls, rfl⟩ := List.exists_cons_of_ne_nil hne
  have hpieces : ∀ p ∈ first :: ls ++ [closer], ¬ eol <:+: p := fun p hp =>
    Text.not_infix_of_mem_splitOn heol.headUnique.ne_nil (hraw ▸ hp)
  have hinserted : ∀ p ∈ first :: ls ++ [l, closer], ¬ eol <:+: p := by
    intro p hp
    by_cases hpl : p = l
    · rw [hpl]
      exact Text.OneLine.not_infix hl heol
    · refine hpieces p ?_
      simp only [List.mem_append, List.mem_cons, List.not_mem_nil, or_false, hpl, false_or] at hp ⊢
      exact hp
  have hwhole : raw = Text.join eol (first :: ls ++ [closer]) := by
    rw [← hraw, Text.join_splitOn heol.headUnique.ne_nil]
  refine ⟨(dropOpener first).trimEnd, ls.map fun l => (dropStar l).trimEnd,
    (dropStar (dropCloser closer)).trimEnd, by simp, ?_, ?_⟩
  · rw [hwhole, strip_join heol.headUnique (by simp) hpieces, List.cons_append, stripLines_concat]
  · have hends : ls ++ [l, closer] = (ls ++ [l]) ++ [closer] := by simp
    rw [strip_join heol.headUnique (by simp) hinserted, List.cons_append, hends, stripLines_concat]
    simp

end Margin

/-- The comment with one more tag outside the vocabulary behind all others. -/
def Comment.addUnknown (c : Comment) (name : Text) (line : Nat) : Comment :=
  { c with order := c.order ++ [name], unknown := c.unknown ++ [⟨name, line⟩] }

section Reading

variable {first last : Text} {inner : List Text} (hlast : last.isBlank)
include hlast

/-- A line in front of a blank last one is the last line of the content. -/
theorem contentLines_insert (first : Text) (inner : List Text) (l : Text) :
    contentLines (first :: (inner ++ [l, last])) =
      contentLines (first :: (inner ++ [last])) ++ [l] := by
  have hinner : inner ++ [l, last] = (inner ++ [l]) ++ [last] := by simp
  rw [hinner, contentLines_concat hlast, contentLines_concat hlast, List.append_assoc]

/-- The lines from the first tag on end in front of the blank last line. -/
theorem tagStart_add_length_tagLines (first : Text) (inner : List Text) :
    tagStart (first :: (inner ++ [last])) + (tagLines (first :: (inner ++ [last]))).length =
      inner.length + 1 := by
  have hparts := congrArg List.length (bodyLines_append_tagLines (first :: (inner ++ [last])))
  rw [contentLines_concat hlast, List.length_append, List.length_append] at hparts
  rw [tagStart, Nat.add_assoc, hparts, contentStart, List.head?_cons, Option.any_some]
  split
  · rw [List.length_nil]
    omega
  · rw [List.length_singleton]
    omega

section Parts

variable (hheader : ∃ l ∈ first :: inner, isHeader l)
include hheader

/-- A header is part of the content. -/
theorem exists_header_contentLines :
    ∃ l ∈ contentLines (first :: (inner ++ [last])), (!isHeader l) = false := by
  obtain ⟨l, hl, hheader⟩ := hheader
  refine ⟨l, ?_, by rw [hheader]; rfl⟩
  rw [contentLines_concat hlast]
  rcases List.mem_cons.mp hl with rfl | hl
  · have hblank : l.isBlank = false := by
      by_contra hblank
      rw [isHeader_of_isBlank (Bool.not_eq_false _ ▸ hblank)] at hheader
      cases hheader
    simp [hblank]
  · exact List.mem_append_right _ hl

/-- A line behind the tags is no part of the description. -/
theorem bodyLines_insert (l : Text) :
    bodyLines (first :: (inner ++ [l, last])) = bodyLines (first :: (inner ++ [last])) := by
  rw [bodyLines, contentLines_insert hlast,
    takeWhile_append_of_exists (exists_header_contentLines hlast hheader), bodyLines]

/-- A line behind the tags is one of theirs. -/
theorem tagLines_insert (l : Text) :
    tagLines (first :: (inner ++ [l, last])) = tagLines (first :: (inner ++ [last])) ++ [l] := by
  rw [tagLines, contentLines_insert hlast,
    dropWhile_append_of_exists (exists_header_contentLines hlast hheader), tagLines]

/-- Where a line opens a tag there are lines of tags. -/
theorem tagLines_ne_nil : tagLines (first :: (inner ++ [last])) ≠ [] := by
  obtain ⟨l, hl, hheader⟩ := exists_header_contentLines hlast hheader
  intro hnil
  rw [List.dropWhile_eq_nil_iff.mp hnil l hl] at hheader
  cases hheader

/-- A comment with a header has a name behind the description entry. -/
theorem Comment.one_lt_length_order (v : Vocabulary) (eol : Text) (tags : List Occurrence) :
    1 < (Comment.assemble v eol (first :: (inner ++ [last])) tags).order.length := by
  have hne : rawTags (first :: (inner ++ [last])) ≠ [] := by
    intro hnil
    have hheaders := map_rawTags (first :: (inner ++ [last]))
    rw [hnil, List.map_nil] at hheaders
    exact tagLines_ne_nil hlast hheader (tagLines_eq_nil_of_headers hheaders.symm)
  have hpos := List.length_pos_of_ne_nil hne
  rw [assemble, List.length_cons, List.length_map]
  omega

/-- A line behind the tags does not move them. -/
theorem tagStart_insert (l : Text) :
    tagStart (first :: (inner ++ [l, last])) = tagStart (first :: (inner ++ [last])) := by
  rw [tagStart, bodyLines_insert hlast hheader, tagStart]
  rfl

variable {l name rest : Text} (hl : header? l = some (name, rest))
include hl

/-- A header in front of a blank last line is one more tag, with no continuation lines. The other
tags stay as they are. -/
theorem rawTags_insert :
    rawTags (first :: (inner ++ [l, last])) =
      rawTags (first :: (inner ++ [last])) ++ [⟨name, inner.length + 1, rest, [],
        RawTag.blanksBehind (trailingBlanks (bodyLines (first :: (inner ++ [last]))))
          (tagLines (first :: (inner ++ [last])))⟩] := by
  rw [rawTags, tagStart_insert hlast hheader, bodyLines_insert hlast hheader,
    tagLines_insert hlast hheader, RawTag.group_concat hl, tagStart_add_length_tagLines hlast,
    rawTags]

variable {v : Vocabulary} (hv : v.get? name = none)
include hv

/-- The comment is made of the same parts, but for the tag outside the vocabulary. -/
theorem Comment.assemble_insert (eol : Text) (tags : List Occurrence) :
    Comment.assemble v eol (first :: (inner ++ [l, last])) tags =
      (Comment.assemble v eol (first :: (inner ++ [last])) tags).addUnknown name
        (inner.length + 1) := by
  have hstart : contentStart (first :: (inner ++ [l, last])) =
      contentStart (first :: (inner ++ [last])) := rfl
  have hne := tagLines_ne_nil hlast hheader
  have hempty : (tagLines (first :: (inner ++ [last])) ++ [l]).isEmpty =
      (tagLines (first :: (inner ++ [last]))).isEmpty := by
    rw [List.isEmpty_eq_false_iff.mpr hne,
      List.isEmpty_eq_false_iff.mpr (List.append_ne_nil_of_left_ne_nil hne [l])]
  simp only [assemble, addUnknown, hstart, bodyLines_insert hlast hheader,
    tagStart_insert hlast hheader, tagLines_insert hlast hheader, hempty,
    rawTags_insert hlast hheader hl, List.map_append, List.filter_append, List.cons_append,
    List.map_cons, List.map_nil, List.filter_cons, List.filter_nil, hv, Option.isNone_none, if_true]

/-- The other tags are read as before, or fail as before. -/
theorem readTags_insert (eol : Text) (rank : Nat) :
    readTags v eol rank (rawTags (first :: (inner ++ [l, last]))) =
      readTags v eol rank (rawTags (first :: (inner ++ [last]))) := by
  rw [rawTags_insert hlast hheader hl, readTags_concat hv]

end Parts

end Reading

/-- The finding that a tag is missing. -/
def Finding.isMissingTag : Finding → Bool
  | .missingTag .. => true
  | _ => false

/-- The issue in a comment that ends one line further down: only a missing tag is reported at the
end. -/
def Issue.moveMissingTag (i : Issue) : Issue :=
  if i.finding.isMissingTag then { i with position := i.position + 1 } else i

/-- A missing tag is what the stage of presence finds. -/
theorem Finding.isMissingTag_eq (f : Finding) : f.isMissingTag = decide (f.stage = .presence) := by
  cases f <;> rfl

/-- Where no tag is missing nothing moves. -/
theorem Issue.map_moveMissingTag {issues : List Issue}
    (h : ∀ i ∈ issues, i.finding.stage ≠ .presence) : issues.map moveMissingTag = issues := by
  refine (List.map_congr_left fun i hi => ?_).trans (List.map_id issues)
  rw [moveMissingTag, Finding.isMissingTag_eq, decide_eq_false (h i hi)]
  rfl

section Layout

variable {s : Scope} {g : Grammar}

/-- The usual rules do not look at the end of the comment. -/
theorem ContentRule.IsBuiltIn.check_moveEnd {rule : ContentRule} (hrule : rule.IsBuiltIn)
    (s : Scope) (last : Nat) (os : List Occurrence) :
    rule.check { s with last } os = rule.check s os := by
  cases hrule <;> rfl

namespace Comment

/-- A name at the end of the order moves no place of another name. -/
theorem indexes_addUnknown {name other : Text} (h : name ≠ other) (c : Comment) (line : Nat) :
    (c.addUnknown name line).indexes other = c.indexes other := by
  simp [indexes, addUnknown, List.zipIdx_append, List.filter_append, h]

/-- An unknown tag does not scatter the tags of the vocabulary. -/
theorem checkRepetition_addUnknown {name : Text} (h : name ≠ g.name) (c : Comment) (line : Nat)
    (s : Scope) (last : Nat) :
    (c.addUnknown name line).checkRepetition { s with last } g = c.checkRepetition s g := by
  have hindexes := indexes_addUnknown h c line
  simp only [checkRepetition, hindexes]
  rfl

/-- An unknown tag changes nothing for a tag but the line where it is missed. -/
theorem checkTag_addUnknown (hrule : g.contentRule.IsBuiltIn) {name : Text} (h : name ≠ g.name)
    (c : Comment) (line : Nat) (s : Scope) :
    (c.addUnknown name line).checkTag { s with last := s.last + 1 } g =
      (c.checkTag s g).map Issue.moveMissingTag := by
  have hoccurrences : (c.addUnknown name line).occurrences g.name = c.occurrences g.name := rfl
  simp only [checkTag, hoccurrences, checkRepetition_addUnknown h, hrule.check_moveEnd]
  split
  · split <;> rfl
  · have hrepetition : ∀ i ∈ c.checkRepetition s g, i.finding.stage ≠ .presence := by
      intro i hi
      rw [stage_of_mem_checkRepetition hi]
      decide
    have hcontent : ∀ i ∈ g.contentRule.check s (c.occurrences g.name),
        i.finding.stage ≠ .presence := by
      intro i hi
      rw [hrule.stage_of_mem_check hi]
      decide
    rw [List.map_append, Issue.map_moveMissingTag hrepetition, Issue.map_moveMissingTag hcontent]

/-- With one more tag outside the vocabulary and one more line, a comment that has tags has the
same issues, and those of missing tags at its new end. -/
theorem checkLayout_addUnknown {v : Vocabulary} (hrules : v.UsesBuiltInRules) {name : Text}
    (hv : v.get? name = none) {c : Comment} (horder : 1 < c.order.length) (line : Nat) (s : Scope) :
    (c.addUnknown name line).checkLayout v { s with last := s.last + 1 } =
      (c.checkLayout v s).map Issue.moveMissingTag := by
  have hspacing : (c.addUnknown name line).checkSpacing { s with last := s.last + 1 } =
      c.checkSpacing s := by
    have hlonger : 1 < (c.order ++ [name]).length := by
      rw [List.length_append]
      omega
    simp only [checkSpacing, addUnknown, horder, hlonger]
    rfl
  have htags : (c.addUnknown name line).checkTags v { s with last := s.last + 1 } =
      (c.checkTags v s).map Issue.moveMissingTag := by
    rw [checkTags, checkTags, List.map_flatMap]
    refine List.flatMap_congr fun g hg => ?_
    have hmem := List.mem_of_mem_filter hg
    have hother : name ≠ g.name := by simpa [eq_comm] using List.find?_eq_none.mp hv g hmem
    exact checkTag_addUnknown (hrules g hmem) hother c line s
  have hstage : ∀ i ∈ c.checkSpacing s, i.finding.stage ≠ .presence := by
    intro i hi
    rw [stage_of_mem_checkSpacing hi]
    decide
  rw [checkLayout, checkLayout, List.map_append, hspacing, htags, Issue.map_moveMissingTag hstage]

end Comment

end Layout

/-- A tag outside the vocabulary on a line of its own in front of the closer of a comment that has
tags. Reading lists its name and its line and changes nothing else, and fails where it failed
before. Under the usual rules the layout has the same issues, but missing tags are reported one line
further down. -/
theorem Comment.parse_insert_tagLine {eol : Text} (heol : eol.IsLineEnd) {v : Vocabulary}
    {name text : Text} (hne : name ≠ []) (hchars : name.all isTagChar) (hv : v.get? name = none)
    (htext : text.OneLine) {raw closer : Text} {ls : List Text}
    (hraw : raw.splitOn eol = ls ++ [closer])
    (hcloser : (Margin.strip raw eol).getLast?.any Text.isBlank)
    (hheader : (Margin.strip raw eol).any isHeader) :
    Comment.parse (Text.join eol (ls ++ [tagLine name text, closer])) v eol =
        (Comment.parse raw v eol).map (·.addUnknown name ls.length) ∧
      (v.UsesBuiltInRules → ∀ c c' s, Comment.parse raw v eol = .ok c →
        Comment.parse (Text.join eol (ls ++ [tagLine name text, closer])) v eol = .ok c' →
        c'.checkLayout v { s with last := s.last + 1 } =
          (c.checkLayout v s).map Issue.moveMissingTag) := by
  have hls : ls ≠ [] := by
    rintro rfl
    have hone : (Margin.strip raw eol).length = 1 := by
      rw [Margin.length_strip, hraw]
      rfl
    obtain ⟨l, hl⟩ := List.length_eq_one_iff.mp hone
    rw [hl, List.getLast?_singleton, Option.any_some] at hcloser
    rw [hl, List.any_cons, isHeader_of_isBlank hcloser] at hheader
    cases hheader
  obtain ⟨first, inner, last, hlength, hstrip, hinserted⟩ :=
    Margin.exists_strip_insert heol hraw hls (oneLine_tagLine hchars htext)
  rw [hstrip, ← List.cons_append] at hcloser hheader
  have hlast : last.isBlank := by
    rwa [List.getLast?_concat, Option.any_some] at hcloser
  have hfront : ∃ l ∈ first :: inner, isHeader l := by
    obtain ⟨l, hl, hheader⟩ := List.any_eq_true.mp hheader
    rcases List.mem_append.mp hl with hl | hl
    · exact ⟨l, hl, hheader⟩
    · rw [List.mem_singleton.mp hl, isHeader_of_isBlank hlast] at hheader
      cases hheader
  have hl := header?_tagLine hchars hne text
  have hread : Comment.parse (Text.join eol (ls ++ [tagLine name text, closer])) v eol =
      (Comment.parse raw v eol).map (·.addUnknown name ls.length) := by
    rw [parse_eq, parse_eq, hinserted, hstrip, readTags_insert hlast hfront hl hv, ← hlength]
    cases readTags v eol 1 (rawTags (first :: (inner ++ [last]))) with
    | error e => rfl
    | ok tags => exact congrArg Except.ok (assemble_insert hlast hfront hl hv eol tags)
  refine ⟨hread, fun hrules c c' s hc hc' => ?_⟩
  rw [hread, hc] at hc'
  cases hc'
  obtain ⟨tags, -, rfl⟩ := exists_tags_of_parse hc
  rw [hstrip]
  exact checkLayout_addUnknown hrules hv (one_lt_length_order hlast hfront v eol tags) ls.length s

/-- A class comment without a version. Behind its last tag, whose text takes two lines, stands a
blank line. -/
def unversionedLines : List Text :=
  ["/**", " * Short.", " *", " * @package foo", " * @property int $a First", " *     and second",
    " *"]

/-- The text of the block. -/
def unversionedText : Text := Text.join "\n" (unversionedLines ++ [(" */" : Text)])

/-- What is read of it. -/
def unversionedComment : Comment where
  short := "Short."
  breaksAfter := 2
  shortEnd := 1
  firstTag := some 3
  tags := [⟨"package", "package", 3, "\n\n", .single "foo"⟩,
    ⟨"property", "properties", 4, "\n", .property {
      tag := "property", beforeType := " ", type := "int", beforeName := " ", name := "$a"
      beforeComment := " ", comment := "First\n     and second", above := "\n", rank := 1
      line := 4 }⟩]
  order := ["comment", "package", "property"]

/-- The text of the property stays as it is, and the missing version moves with the closer. -/
theorem Comment.parse_insert_todo :
    Comment.parse
        (Text.join "\n" (unversionedLines ++ [tagLine "todo" "Later.", (" */" : Text)]))
        .classComment "\n" = .ok (unversionedComment.addUnknown "todo" 7) ∧
      unversionedComment.checkLayout .classComment ⟨.declaration, 3, 10, "\n", []⟩ =
        [⟨6, .invalidPackageName "package" "foo" "Foo"⟩, ⟨10, .missingTag .declaration "version"⟩] ∧
      (unversionedComment.addUnknown "todo" 7).checkLayout .classComment
          ⟨.declaration, 3, 11, "\n", []⟩ =
        [⟨6, .invalidPackageName "package" "foo" "Foo"⟩,
          ⟨11, .missingTag .declaration "version"⟩] := by
  have hraw : Comment.parse unversionedText .classComment "\n" = .ok unversionedComment := by
    decide +kernel
  have hissues : unversionedComment.checkLayout .classComment ⟨.declaration, 3, 10, "\n", []⟩ =
      [⟨6, .invalidPackageName "package" "foo" "Foo"⟩,
        ⟨10, .missingTag .declaration "version"⟩] := by decide +kernel
  have hlines : unversionedText.splitOn "\n" = unversionedLines ++ [(" */" : Text)] := by
    decide +kernel
  have hcloser : (Margin.strip unversionedText "\n").getLast?.any Text.isBlank := by decide +kernel
  have hheader : (Margin.strip unversionedText "\n").any isHeader := by decide +kernel
  have htodo : Vocabulary.classComment.get? "todo" = none := rfl
  have htext : Text.OneLine "Later." := by decide
  obtain ⟨hread, hlayout⟩ := parse_insert_tagLine (.inl rfl) (by decide) (by decide) htodo htext
    hlines hcloser hheader
  rw [hraw] at hread
  have hmoved := hlayout Vocabulary.usesBuiltInRules_classComment _ _
    ⟨.declaration, 3, 10, "\n", []⟩ hraw hread
  rw [hissues] at hmoved
  exact ⟨hread, hissues, hmoved⟩

end DocCheck
