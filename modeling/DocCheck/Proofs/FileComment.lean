import DocCheck.Proofs.Comment.Rendering
import DocCheck.Proofs.Rule.Author
import DocCheck.Proofs.Rule.Copyright
import DocCheck.Proofs.Rule.Layout
import DocCheck.Proofs.Rule.PackageName
import DocCheck.Proofs.Sink
import DocCheck.Proofs.Stream.Builder
import DocCheck.Proofs.Vocabulary

/-!
# Well-formed file comments

A file comment is well-formed when its required tags are there, no tag is repeated against its
grammar, equal tags stand together and every tag has the content that it should have. Written down
in front of a class and a blank line, such a comment has no issue, whatever the order of its tags
and however many authors and copyrights it names.
-/

namespace DocCheck

/-- A license as it is written: at least two words. -/
def IsLicense (t : Text) : Prop :=
  ∃ (front back : Text) (c : Char), t = front ++ c :: back ∧ isSpace c ∧
    front.isBlank = false ∧ back.isBlank = false

/-- The key and the value of two words are not empty. -/
theorem IsLicense.splitKeyValue_ne_nil {t : Text} (h : IsLicense t) (htrim : t.trim = t) :
    (splitKeyValue t).1 ≠ [] ∧ (splitKeyValue t).2 ≠ [] := by
  obtain ⟨front, back, c, rfl, hc, hfront, hback⟩ := h
  have hrest : Text.isBlank (c :: back) = false := by
    simpa [Text.isBlank, hc] using hback
  rw [splitKeyValue, htrim]
  constructor
  · obtain ⟨x, front', rfl⟩ := List.exists_cons_of_ne_nil (l := front) (by rintro rfl; cases hfront)
    have hx : isSpace x = false :=
      Text.trimStart_eq_self_iff.mp (Text.trim_eq_self_iff.mp htrim).1 x rfl
    simp [hx]
  · -- The first word ends in front of the space at the latest.
    rw [Ne, Text.trim_eq_nil_iff, List.dropWhile_append, Bool.not_eq_true]
    split
    · simpa [hc] using hrest
    · rw [Text.isBlank, List.all_append]
      exact Bool.and_eq_false_imp.mpr fun _ => hrest

/-- The tags of a well-formed file comment, with the contents that they should have. -/
inductive IsFileTag : (name content : Text) → Prop where
  | package {content : Text} (h : IsPackageName content) : IsFileTag "package" content
  | author {content : Text} (h : Author.IsWritten content) : IsFileTag "author" content
  | copyright {content : Text} (h : IsCopyright content) : IsFileTag "copyright" content
  | license {content : Text} (h : IsLicense content) : IsFileTag "license" content
  | version {content : Text} (marker : Text) (hmarker : marker ∈ ({} : Settings).versionMarkers)
      (h : marker <:+: content) : IsFileTag "version" content

/-- The number of tags with a name. -/
def Draft.tagCount (d : Draft) (name : Text) : Nat := (d.tags.map (·.name)).count name

/-- A draft of a well-formed file comment: every tag is on one line with the content that it should
have, those that must be there are, only authors and copyrights are repeated, and equal tags stand
together. -/
structure Draft.IsFileComment (d : Draft) : Prop where
  isFileTag : ∀ t ∈ d.tags, ∃ content, t.content = [content] ∧ IsFileTag t.name content
  onePackage : d.tagCount "package" = 1
  someCopyright : 1 ≤ d.tagCount "copyright"
  oneLicense : d.tagCount "license" = 1
  oneVersion : d.tagCount "version" = 1
  grouped : Grouped (d.tags.map (·.name))

/-- What the content of a tag of a file comment is read as. -/
def fileElement (name content : Text) : Element :=
  if name = "license".toList then .keyValue (splitKeyValue content).1 (splitKeyValue content).2
  else .single content

/-- The file comment that a draft stands for. -/
def Draft.fileComment (d : Draft) (eol : Text) : Comment :=
  d.comment .fileComment eol fun t => fileElement t.name (Text.join eol t.content)

namespace IsFileTag

variable {name content : Text}

/-- A file tag is in the vocabulary, and its content is read in the shape prescribed. -/
theorem exists_grammar (h : IsFileTag name content) :
    ∃ g, Vocabulary.fileComment.get? name = some g ∧
      g.shape.element? content = some (fileElement name content) := by
  cases h <;> exact ⟨_, rfl, rfl⟩

/-- There are five names of file tags. -/
theorem name_mem (h : IsFileTag name content) :
    name ∈ (["package", "author", "copyright", "license", "version"] : List Text) := by
  cases h <;> decide

/-- A tag with the content that it should have follows the rule of its grammar. -/
theorem check_singleton_eq_nil (h : IsFileTag name content) (hne : content ≠ [])
    (htrim : content.trim = content) (hline : content.OneLine) {g : Grammar}
    (hg : Vocabulary.fileComment.get? name = some g) {o : Occurrence}
    (ho : o.element = fileElement name content) {s : Scope}
    (hs : s.versionMarkers = ({} : Settings).versionMarkers) :
    g.contentRule.check s [o] = [] := by
  have hempty : ¬ content.isEmpty := by simpa using hne
  have hcontent (hname : name ≠ "license".toList) : o.content = content := by
    rw [Occurrence.content, ho, fileElement, if_neg hname]
  -- Each kind of file tag meets the rule of its grammar.
  cases h with
  | package h =>
    cases hg
    refine (ContentRule.check_last_singleton o).trans ?_
    rw [Occurrence.checkPackageName, hcontent (by decide), if_neg hempty,
      if_pos (isUnderscoreName_iff.mpr h)]
  | author h =>
    cases hg
    refine (ContentRule.check_each_singleton o).trans ?_
    rw [Occurrence.checkAuthor, hcontent (by decide), if_neg hempty,
      if_pos (Author.accepts_iff.mpr h)]
  | copyright h =>
    cases hg
    have hcontent := hcontent (by decide)
    refine (ContentRule.check_each_singleton o).trans ?_
    exact Occurrence.checkCopyright_eq_nil (hcontent ▸ h) (hcontent ▸ hline.2) s
  | license h =>
    cases hg
    obtain ⟨hkey, hvalue⟩ := h.splitKeyValue_ne_nil htrim
    refine (ContentRule.check_last_singleton o).trans ?_
    rw [Occurrence.checkLicense, ho, fileElement, if_pos rfl]
    simp [hkey, hvalue]
  | version marker hmarker h =>
    cases hg
    have hany : s.versionMarkers.any (content.contains ·) :=
      List.any_eq_true.mpr ⟨marker, hs ▸ hmarker, Text.contains_iff_infix.mpr h⟩
    refine (ContentRule.check_last_singleton o).trans ?_
    rw [Occurrence.checkVersion, hcontent (by decide), if_neg hempty, hany, Bool.or_true,
      if_pos rfl]

end IsFileTag

/-- There is no issue with the blank lines of a draft that was written down. -/
theorem Draft.checkSpacing_comment (d : Draft) (v : Vocabulary) (element : DraftTag → Element)
    {eol : Text} (heol : eol.IsLineEnd) {s : Scope} (hs : s.eol = eol) :
    (d.comment v eol element).checkSpacing s = [] := by
  have hcount : Text.count (eol ++ eol) eol = 2 := by rcases heol with rfl | rfl <;> decide
  simp only [Comment.checkSpacing, Comment.hasLong, comment, hs]
  by_cases hlong : d.long = [] <;> by_cases htags : d.tags = [] <;> simp [hlong, htags, hcount]

namespace Draft.IsFileComment

variable {d : Draft}

/-- Every tag that is required is there. -/
theorem one_le_tagCount (h : d.IsFileComment) {g : Grammar}
    (hg : g ∈ Vocabulary.fileComment.grammars) (hrequired : g.requirement = .required) :
    1 ≤ d.tagCount g.name := by
  have hname : ∀ g ∈ Vocabulary.fileComment.grammars, g.requirement = .required →
      g.name ∈ (["package", "copyright", "license", "version"] : List Text) := by decide
  have := hname g hg hrequired
  simp only [List.mem_cons, List.not_mem_nil, or_false] at this
  rcases this with heq | heq | heq | heq <;> rw [heq]
  · exact h.onePackage.ge
  · exact h.someCopyright
  · exact h.oneLicense.ge
  · exact h.oneVersion.ge

/-- No tag that may appear once is repeated. -/
theorem tagCount_le_one (h : d.IsFileComment) {g : Grammar}
    (hg : g ∈ Vocabulary.fileComment.grammars) (hchecked : g.isChecked)
    (hrepeatable : g.repeatable = false) : d.tagCount g.name ≤ 1 := by
  have hname : ∀ g ∈ Vocabulary.fileComment.grammars, g.isChecked → g.repeatable = false →
      g.name ∈ (["package", "subpackage", "license", "version"] : List Text) := by decide
  have hnone : d.tagCount "subpackage" = 0 := by
    refine List.count_eq_zero.mpr fun hmem => ?_
    obtain ⟨t, ht, heq⟩ := List.mem_map.mp hmem
    obtain ⟨content, -, htag⟩ := h.isFileTag t ht
    exact absurd (heq ▸ htag.name_mem) (by decide)
  have := hname g hg hchecked hrepeatable
  simp only [List.mem_cons, List.not_mem_nil, or_false] at this
  rcases this with heq | heq | heq | heq <;> rw [heq]
  · exact h.onePackage.le
  · exact hnone.trans_le (Nat.zero_le 1)
  · exact h.oneLicense.le
  · exact h.oneVersion.le

/-- There is no issue with the tags of a well-formed file comment. -/
theorem checkTags_fileComment (h : d.IsFileComment) (eol : Text) {s : Scope}
    (hs : s.versionMarkers = ({} : Settings).versionMarkers) :
    (d.fileComment eol).checkTags .fileComment s = [] := by
  have hentry : ∀ g ∈ Vocabulary.fileComment.grammars, g.name ≠ descriptionEntry := by decide
  refine List.flatMap_eq_nil_iff.mpr fun g hg => ?_
  obtain ⟨hmem, hchecked⟩ := List.mem_filter.mp hg
  have hcount : ((d.fileComment eol).occurrences g.name).length = d.tagCount g.name := by
    rw [Comment.length_occurrences, fileComment, comment, DraftTag.map_name_occurrencesFrom,
      tagCount]
  apply Comment.checkTag_eq_nil
  · intro hrequired hnil
    have := h.one_le_tagCount hmem hrequired
    rw [← hcount, hnil, List.length_nil] at this
    omega
  · refine Comment.checkRepetition_eq_nil rfl h.grouped (hentry g hmem) fun hrepeatable => ?_
    rw [hcount]
    exact h.tagCount_le_one hmem hchecked hrepeatable
  · exact Vocabulary.usesBuiltInRules_fileComment g hmem
  · intro o ho
    obtain ⟨ho, hname⟩ := List.mem_filter.mp ho
    obtain ⟨t, ht, htname, helement⟩ := DraftTag.exists_of_mem_occurrencesFrom ho
    obtain ⟨content, hcontent, htag⟩ := h.isFileTag t ht
    have hin : content ∈ t.content := by simp [hcontent]
    rw [hcontent, Text.join_singleton] at helement
    refine htag.check_singleton_eq_nil ?_ (t.trimmed content hin) (t.oneLine content hin) ?_
      helement hs
    · rintro rfl
      exact t.first_ne_nil (by rw [hcontent]; rfl)
    · rw [← htname, of_decide_eq_true hname]
      exact Vocabulary.get?_name hmem

end Draft.IsFileComment

/-- A draft is written with its markers, so with some characters. -/
theorem Draft.render_ne_nil (d : Draft) (eol : Text) : d.render eol ≠ [] :=
  fun h => absurd (eq_nil_of_join_cons_eq_nil h) (by decide)

/-- A draft has a first paragraph, so its comment is not empty. -/
theorem Draft.isEmpty_comment (d : Draft) (v : Vocabulary) (eol : Text)
    (element : DraftTag → Element) : (d.comment v eol element).isEmpty = false := by
  obtain ⟨l, ls, hshort⟩ := List.exists_cons_of_ne_nil d.short_ne_nil
  have hne : Text.join eol d.short ≠ [] := by
    rw [hshort]
    intro hnil
    exact (d.short_lines l (by simp [hshort])).1 (eq_nil_of_join_cons_eq_nil hnil)
  simp [Comment.isEmpty, comment, hne]

/-- The issues of a file comment that was read are those with its layout. -/
theorem fileIssues_of_parse_ok {cfg : Settings} {s : Stream} {p : Nat} {b : Block} {c : Comment}
    (hblock : s.fileBlock p cfg.directiveMarker = .found b)
    (hparse : Comment.parse b.text cfg.fileVocabulary s.eol = .ok c) (hempty : c.isEmpty = false) :
    fileIssues cfg s p = c.checkLayout cfg.fileVocabulary (b.scope .file s cfg) := by
  have hread : b.read cfg.fileVocabulary (b.scope .file s cfg) = .ok c := by
    simp [Block.read, Block.scope, hparse, hempty]
  simp only [fileIssues, hblock, hread]

/-- Written down in front of a class and at least one blank line, a well-formed file comment is
found and has no issue. -/
theorem Draft.IsFileComment.found_and_clean {d : Draft} (h : d.IsFileComment) {eol : Text}
    (heol : eol.IsLineEnd) {n : Nat} (hn : 2 ≤ n) (name : Text) :
    (∃ last, (documentedClass eol (d.render eol) n name).fileBlock 0
        ({} : Settings).directiveMarker = .found ⟨1, last, d.render eol⟩) ∧
      Check.fileComment.run {} (documentedClass eol (d.render eol) n name) = [] := by
  obtain ⟨docs, breaks, hdocs, htext, hlength⟩ :=
    exists_documents_documentedClass eol (d.render_ne_nil eol) n name
  have hblock := hdocs.fileBlock_eq (by omega) ({} : Settings).directiveMarker
  rw [htext] at hblock
  refine ⟨⟨docs.length, hblock⟩, ?_⟩
  have hparse : Comment.parse (d.render eol) .fileComment eol = .ok (d.fileComment eol) := by
    refine d.parse_render_of_element? heol fun t ht => ?_
    obtain ⟨content, hcontent, htag⟩ := h.isFileTag t ht
    rw [hcontent, Text.join_singleton]
    exact htag.exists_grammar
  have hstream := eol_documentedClass eol (d.render eol) n name
  generalize documentedClass eol (d.render eol) n name = s at hdocs hblock hstream ⊢
  subst hstream
  let scope : Scope := Block.scope ⟨1, docs.length, d.render s.eol⟩ .file s {}
  have hspacing : (d.fileComment s.eol).checkSpacing scope = [] :=
    d.checkSpacing_comment _ _ heol rfl
  have htags : (d.fileComment s.eol).checkTags .fileComment scope = [] :=
    h.checkTags_fileComment s.eol rfl
  calc Check.fileComment.run {} s
      = fileIssues {} s 0 := by
        rw [Check.run_fileComment_eq, hdocs.loneComment.positions_openTag, List.flatMap_singleton]
    _ = (d.fileComment s.eol).checkLayout .fileComment scope :=
        fileIssues_of_parse_ok hblock hparse (d.isEmpty_comment _ _ _)
    _ = [] := by rw [Comment.checkLayout, hspacing, htags, List.append_nil]

/-- A tag with its content on one line. -/
def DraftTag.onOneLine (name content : Text) (hname : name ≠ [] ∧ name.all isTagChar)
    (hcontent : content ≠ [] ∧ content.OneLine ∧ content.trim = content) : DraftTag where
  name := name
  content := [content]
  name_ne_nil := hname.1
  name_chars := hname.2
  oneLine := by simpa using hcontent.2.1
  trimmed := by simpa using hcontent.2.2
  first_ne_nil := by simpa using hcontent.1
  last_ne_nil := by simpa using hcontent.1
  noHeader := by simp

/-- A well-formed file comment with two authors and two copyrights, in an unusual order. -/
def Draft.reordered : Draft where
  short := ["The first paragraph."]
  long := ["The second", "", "and the third."]
  tags := [
    .onOneLine "version" "Release: //autogen//" (by decide) (by decide),
    .onOneLine "copyright" "Copyright (C) 2010 Jane Doe" (by decide) (by decide),
    .onOneLine "copyright" "Copyright (C) 2007-2008 2 Doe" (by decide) (by decide),
    .onOneLine "license" "MIT License" (by decide) (by decide),
    .onOneLine "author" "Jane Doe <jane@example.com>" (by decide) (by decide),
    .onOneLine "author" "Jane <jane.doe@docs-2.example.com>" (by decide) (by decide),
    .onOneLine "package" "Foo_2_Bar" (by decide) (by decide)]
  short_ne_nil := by decide
  short_lines := by decide
  long_lines := by decide
  long_first_ne_nil := by decide
  long_last_ne_nil := by decide
  oneLine := by decide
  noHeader := by decide

/-- The draft with its tags in another order is still a file comment. -/
theorem Draft.isFileComment_reordered : Draft.reordered.IsFileComment where
  isFileTag := by
    intro t ht
    simp only [reordered, List.mem_cons, List.not_mem_nil, or_false] at ht
    have hholder : ¬ CopyrightYears.StartsWithYear "Jane Doe" := by
      rintro ⟨year, rest, heq, hyear⟩
      cases CopyrightYears.year?_eq_some_iff.mpr ⟨heq, CopyrightYears.isYear_iff.mp hyear⟩
    rcases ht with rfl | rfl | rfl | rfl | rfl | rfl | rfl
    · exact ⟨_, rfl, .version "//autogen//" (by decide) (by decide)⟩
    · exact ⟨_, rfl, .copyright (.single "2010" "Jane Doe" (by decide) (by decide) hholder)⟩
    · exact ⟨_, rfl, .copyright (.span "2007" "2008" "2 Doe" (by decide) (by decide) (by decide)
        (by decide))⟩
    · exact ⟨_, rfl, .license ⟨"MIT", "License", ' ', rfl, by decide⟩⟩
    · exact ⟨_, rfl, .author (Author.accepts_iff.mp (by decide))⟩
    · exact ⟨_, rfl, .author (Author.accepts_iff.mp (by decide))⟩
    · exact ⟨_, rfl, .package (isUnderscoreName_iff.mp (by decide))⟩
  onePackage := by decide
  someCopyright := by decide
  oneLicense := by decide
  oneVersion := by decide
  grouped := by decide

/-- Neither the order of the groups nor a third line end is an issue. -/
theorem Draft.found_and_clean_reordered :
    reordered.IsFileComment ∧
      (∃ last, (documentedClass "\r\n" (reordered.render "\r\n") 3 "Foo").fileBlock 0
        ({} : Settings).directiveMarker = .found ⟨1, last, reordered.render "\r\n"⟩) ∧
      Check.fileComment.run {} (documentedClass "\r\n" (reordered.render "\r\n") 3 "Foo") = [] :=
  ⟨isFileComment_reordered, isFileComment_reordered.found_and_clean (.inr rfl) (by decide) "Foo"⟩

end DocCheck
