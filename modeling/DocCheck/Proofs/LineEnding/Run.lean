import DocCheck.Proofs.LineEnding.Column
import DocCheck.Proofs.LineEnding.Stream
import DocCheck.Proofs.Sink

/-!
# Line ends and whole runs

Writing the line ends of a source with carriage returns changes nothing but columns. The issues of
a class-like declaration stay the same exactly if the columns of its property declarations are
kept; all issues that are not about columns stay the same in any case.
-/

namespace DocCheck

open Text

section Properties

/-- The declarations of a comment come in the order of their lines. -/
theorem Comment.pairwise_line_properties {raw eol : Text} {v : Vocabulary} {c : Comment}
    (hparse : Comment.parse raw v eol = .ok c) : c.properties.Pairwise (·.line < ·.line) := by
  obtain ⟨tags, htags, rfl⟩ := Comment.exists_tags_of_parse hparse
  have htagLines := pairwise_line_readTags htags (pairwise_line_rawTags _)
  have hline : ∀ o ∈ tags, ∀ p, o.element = .property p → p.line = o.line := by
    rintro o ho p hp
    obtain ⟨t, -, g, rank, element, -, helement, rfl⟩ := exists_rawTag_of_mem htags ho
    obtain rfl : element = .property p := hp
    rw [RawTag.property_eq_ok (RawTag.property_of_element helement).2]
  refine List.pairwise_filterMap.mpr (htagLines.imp_of_mem ?_)
  intro o o' ho ho' hlt p hp p' hp'
  split at hp
  · next q hq =>
    split at hp'
    · next q' hq' =>
      cases hp
      cases hp'
      rw [hline o ho p hq, hline o' ho' p' hq']
      exact hlt
    · cases hp'
  · cases hp

/-- There are as many line ends above a declaration. -/
theorem Property.count_above_crlf {p : Property} (hp : p.HasLineFeeds) {s : Scope}
    (heol : s.eol = "\n") : p.crlfTexts.above.count s.crlf.eol = p.above.count s.eol := by
  rw [heol]
  exact count_lineEnd_crlf hp.above

/-- The declarations of a comment are found in the same tags. -/
theorem Comment.properties_crlf (c : Comment) :
    c.crlfTexts.properties = c.properties.map Property.crlfTexts := by
  rw [properties, crlfTexts, List.filterMap_map, properties, List.map_filterMap]
  apply List.filterMap_congr
  intro o _
  obtain ⟨name, container, line, above, element⟩ := o
  cases element <;> rfl

variable {s : Scope} (heol : s.eol = "\n") {ps : List Property}
  (hps : ∀ p ∈ ps, p.HasLineFeeds)

include heol hps

/-- The declarations of a comment are reported alike exactly if their columns are kept. -/
theorem checkProperties_crlf_iff (hlines : ps.Pairwise (·.line < ·.line)) :
    checkProperties (ps.map Property.crlfTexts) s.crlf = (checkProperties ps s).map Issue.crlf ↔
      ps.IsChain Alignment.Kept := by
  cases ps with
  | nil => simp [checkProperties]
  | cons p ps =>
    have hcount := Property.count_above_crlf (hps p List.mem_cons_self) heol
    have hstart : Alignment.State.HasLineFeeds {} := nofun
    have hwalk := Alignment.walk_crlf_iff heol hps hlines hstart
    simp only [checkProperties, List.map_cons, List.map_append, Issue.map_crlf_ite, hcount]
    exact (List.append_cancel_left_eq _ _ _).to_iff.trans hwalk

/-- What is not about the columns of declarations is reported alike. -/
theorem filter_checkProperties_crlf :
    (checkProperties (ps.map Property.crlfTexts) s.crlf).filter (!·.finding.isColumn) =
      ((checkProperties ps s).map Issue.crlf).filter (!·.finding.isColumn) := by
  cases ps with
  | nil => rfl
  | cons p ps =>
    have hcount := Property.count_above_crlf (hps p List.mem_cons_self) heol
    simp only [checkProperties, List.map_cons, List.map_append, Issue.map_crlf_ite, hcount,
      List.filter_append]
    exact congrArg₂ _ rfl (Alignment.filter_walk_crlf heol hps {})

end Properties

/-- A block is read alike; what keeps it from being examined is the same. -/
theorem Block.read_crlf {b : Block} (hb : '\r' ∉ b.text) (v : Vocabulary) {s : Scope}
    (heol : s.eol = "\n") :
    b.crlf.read v s.crlf = ((b.read v s).mapError Issue.crlf).map Comment.crlfTexts := by
  have hparse : Comment.parse b.crlf.text v s.crlf.eol =
      (Comment.parse b.text v s.eol).map Comment.crlfTexts := by
    rw [heol]
    exact Comment.parse_of_strip_eq (Margin.strip_crlf hb) v
  rw [read, hparse, read]
  cases he : Comment.parse b.text v s.eol with
  | error e =>
    have htag : e.tag.crlf = e.tag := crlf_eq_self (Comment.not_mem_tag_of_parse_error (heol ▸ he))
    exact congrArg (fun tag => Except.error (s.crlf.at e.line (.malformed tag e.fault))) htag.symm
  | ok c =>
    simp only [Except.map, Comment.isEmpty_crlf]
    split <;> rfl

/-- Settings without further tags and with markers that hold no line end. -/
structure Settings.IsPlain (cfg : Settings) : Prop where
  extraTags_eq : cfg.extraTags = []
  directiveMarker : '\r' ∉ cfg.directiveMarker ∧ '\n' ∉ cfg.directiveMarker
  versionMarkers : ∀ m ∈ cfg.versionMarkers, '\r' ∉ m ∧ '\n' ∉ m

namespace Settings.IsPlain

variable {cfg : Settings} (hcfg : cfg.IsPlain)

include hcfg

/-- Without further tags there are no other rules than the usual ones. -/
theorem usesBuiltInRules : cfg.UsesBuiltInRules := by
  intro g hg
  rw [hcfg.extraTags_eq] at hg
  cases hg

/-- The names of the usual file tags lie on one line. -/
theorem not_mem_fileVocabulary : ∀ g ∈ cfg.fileVocabulary.grammars, '\n' ∉ g.name := by
  rw [fileVocabulary, hcfg.extraTags_eq]
  decide

/-- The names of the usual class tags lie on one line. -/
theorem not_mem_classVocabulary : ∀ g ∈ cfg.classVocabulary.grammars, '\n' ∉ g.name := by
  rw [classVocabulary, hcfg.extraTags_eq]
  decide

end Settings.IsPlain

/-- The columns of neighbouring property declarations of a class-like declaration are kept. -/
def ColumnsKept (cfg : Settings) (s : Stream) (c : Nat) : Prop :=
  ∀ ps ∈ (examineClass cfg s c).properties, ps.IsChain Alignment.Kept

section Run

variable {cfg : Settings} (hcfg : cfg.IsPlain) {s : Stream} (hs : s.HasLineFeeds)

include hcfg hs

/-- The file comment is reported alike. -/
theorem fileIssues_crlf (p : Nat) :
    fileIssues cfg s.crlf p = (fileIssues cfg s p).map Issue.crlf := by
  rw [fileIssues, Stream.fileBlock_crlf hs hcfg.directiveMarker.1 hcfg.directiveMarker.2,
    fileIssues]
  cases hblock : s.fileBlock p cfg.directiveMarker with
  | notApplicable => rfl
  | missing i => rfl
  | wrongStyle i => rfl
  | found b =>
    have hb := hs.not_mem_block (Stream.isIn_of_fileBlock hblock)
    have hscope : b.crlf.scope .file s.crlf cfg = (b.scope .file s cfg).crlf := rfl
    have heol : (b.scope .file s cfg).eol = "\n" := hs.eol_eq
    simp only [Placement.crlf, hscope, Block.read_crlf hb _ heol]
    cases hread : b.read cfg.fileVocabulary (b.scope .file s cfg) with
    | error i => rfl
    | ok c =>
      have hc := Comment.hasLineFeeds_of_parse hb (heol ▸ Block.parse_of_read_ok hread)
      exact (congrArg₂ _ (Comment.checkSpacing_crlf hc heol)
        (Comment.checkTags_crlf hc hcfg.versionMarkers hcfg.usesBuiltInRules.fileVocabulary
          hcfg.not_mem_fileVocabulary)).trans List.map_append.symm

/-- What the two sources say of a declaration: if its comment can be examined, only the issues of
its property declarations may differ. -/
theorem classIssues_crlf_cases (c : Nat) :
    ((examineClass cfg s c).properties = none ∧
      classIssues cfg s.crlf c = (classIssues cfg s c).map Issue.crlf) ∨
    ∃ (scope : Scope) (ps : List Property) (front back : List Issue), scope.eol = "\n" ∧
      (∀ p ∈ ps, p.HasLineFeeds) ∧ ps.Pairwise (·.line < ·.line) ∧
      (examineClass cfg s c).properties = some ps ∧
      classIssues cfg s c = front ++ (checkProperties ps scope ++ back) ∧
      classIssues cfg s.crlf c = front.map Issue.crlf ++
        (checkProperties (ps.map Property.crlfTexts) scope.crlf ++ back.map Issue.crlf) := by
  simp only [classIssues, examineClass, Stream.classBlock_crlf hs]
  cases hblock : s.classBlock c with
  | notApplicable => exact .inl ⟨rfl, rfl⟩
  | missing i => exact .inl ⟨rfl, rfl⟩
  | wrongStyle i => exact .inl ⟨rfl, rfl⟩
  | found b =>
    have hb := hs.not_mem_block (Stream.isIn_of_classBlock hblock)
    have hscope : b.crlf.scope .declaration s.crlf cfg = (b.scope .declaration s cfg).crlf := rfl
    have heol : (b.scope .declaration s cfg).eol = "\n" := hs.eol_eq
    simp only [Placement.crlf, hscope, Block.read_crlf hb _ heol]
    cases hread : b.read cfg.classVocabulary (b.scope .declaration s cfg) with
    | error i => exact .inl ⟨rfl, rfl⟩
    | ok comment =>
      have hparse := heol ▸ Block.parse_of_read_ok hread
      have hc := Comment.hasLineFeeds_of_parse hb hparse
      refine .inr ⟨b.scope .declaration s cfg, comment.properties,
        comment.checkSpacing (b.scope .declaration s cfg),
        comment.checkUnknown (b.scope .declaration s cfg) ++
          comment.checkTags cfg.classVocabulary (b.scope .declaration s cfg), heol,
        hc.properties, Comment.pairwise_line_properties hparse, rfl,
        by simp only [List.append_assoc], ?_⟩
      have hmarkers : ∀ m ∈ (b.scope .declaration s cfg).versionMarkers, '\r' ∉ m ∧ '\n' ∉ m :=
        hcfg.versionMarkers
      simp only [Except.mapError, Except.map, Comment.checkSpacing_crlf hc heol,
        comment.properties_crlf, Comment.checkUnknown_crlf hc,
        Comment.checkTags_crlf hc hmarkers hcfg.usesBuiltInRules.classVocabulary
          hcfg.not_mem_classVocabulary, List.append_assoc, List.map_append]

/-- The issues of a declaration are reported alike exactly if its columns are kept. -/
theorem classIssues_crlf_iff (c : Nat) :
    classIssues cfg s.crlf c = (classIssues cfg s c).map Issue.crlf ↔ ColumnsKept cfg s c := by
  rw [ColumnsKept]
  rcases classIssues_crlf_cases hcfg hs c with
    ⟨hnone, halike⟩ | ⟨scope, ps, front, back, heol, hps, hlines, hsome, hfeed, hreturn⟩
  · exact iff_of_true halike (by simp [hnone])
  · rw [hfeed, hreturn, List.map_append, List.map_append, List.append_cancel_left_eq,
      List.append_cancel_right_eq, checkProperties_crlf_iff heol hps hlines, hsome]
    simp

/-- All issues of a declaration that are not about columns are reported alike. -/
theorem filter_classIssues_crlf (c : Nat) :
    (classIssues cfg s.crlf c).filter (!·.finding.isColumn) =
      ((classIssues cfg s c).map Issue.crlf).filter (!·.finding.isColumn) := by
  rcases classIssues_crlf_cases hcfg hs c with
    ⟨-, halike⟩ | ⟨scope, ps, front, back, heol, hps, -, -, hfeed, hreturn⟩
  · rw [halike]
  · rw [hfeed, hreturn, List.map_append, List.map_append, List.filter_append, List.filter_append,
      List.filter_append, List.filter_append, filter_checkProperties_crlf heol hps]

end Run

/-- Diagnostics depend on the line ends of the source only through columns. The issues of a
class-like declaration are the same exactly if its columns are kept; if those of all declarations
are, the whole run reports the same; and in any case it does so apart from columns. -/
theorem runAll_crlf {cfg : Settings} (hcfg : cfg.IsPlain) {s : Stream} (hs : s.HasLineFeeds) :
    (∀ c, classIssues cfg s.crlf c = (classIssues cfg s c).map Issue.crlf ↔ ColumnsKept cfg s c) ∧
    ((∀ c ∈ s.positions (·.isClassLike), ColumnsKept cfg s c) →
      Check.runAll Check.all cfg s.crlf = (Check.runAll Check.all cfg s).map Issue.crlf) ∧
    (Check.runAll Check.all cfg s.crlf).filter (!·.finding.isColumn) =
      ((Check.runAll Check.all cfg s).map Issue.crlf).filter (!·.finding.isColumn) := by
  have hfile : Check.fileComment.run cfg s.crlf =
      (Check.fileComment.run cfg s).map Issue.crlf := by
    rw [Check.run_fileComment_eq, Stream.positions_crlf, Check.run_fileComment_eq,
      List.map_flatMap]
    exact List.flatMap_congr fun p _ => fileIssues_crlf hcfg hs p
  have hrun (s : Stream) : Check.runAll Check.all cfg s =
      Check.fileComment.run cfg s ++ Check.classComment.run cfg s := by
    simp [Check.runAll_eq_flatMap, Check.all]
  refine ⟨classIssues_crlf_iff hcfg hs, fun hkept => ?_, ?_⟩
  · have hclass : Check.classComment.run cfg s.crlf =
        (Check.classComment.run cfg s).map Issue.crlf := by
      rw [Check.run_classComment_eq, Stream.positions_crlf, Check.run_classComment_eq,
        List.map_flatMap]
      exact List.flatMap_congr fun c hc => (classIssues_crlf_iff hcfg hs c).mpr (hkept c hc)
    rw [hrun, hrun, hfile, hclass, List.map_append]
  · have hclass : (Check.classComment.run cfg s.crlf).filter (!·.finding.isColumn) =
        ((Check.classComment.run cfg s).map Issue.crlf).filter (!·.finding.isColumn) := by
      rw [Check.run_classComment_eq, Stream.positions_crlf, Check.run_classComment_eq,
        List.map_flatMap, List.filter_flatMap, List.filter_flatMap]
      exact List.flatMap_congr fun c _ => filter_classIssues_crlf hcfg hs c
    rw [hrun, hrun, hfile, List.filter_append, hclass, List.map_append, List.filter_append]

/-- A class whose first property has its name on a line of its own, under the name that follows. -/
def wrappedName : Stream where
  eol := "\n"
  tokens := [⟨.openTag, "<?php\n", 1⟩, ⟨.docComment, "/**\n", 2⟩, ⟨.docComment, " * Short.\n", 3⟩,
    ⟨.docComment, " *\n", 4⟩, ⟨.docComment, " * @property int\n", 5⟩,
    ⟨.docComment, " * $a A\n", 6⟩, ⟨.docComment, " * @property int  $b B\n", 7⟩,
    ⟨.docComment, " *\n", 8⟩, ⟨.docComment, " * @package Foo\n", 9⟩,
    ⟨.docComment, " * @version //autogen//\n", 10⟩, ⟨.docComment, " */", 11⟩,
    ⟨.whitespace, "\n", 11⟩, ⟨.classWord, "class", 12⟩]

/-- A line feed takes as much room as a blank, so the two names line up; a line end of two bytes
moves the first one out of its column. -/
theorem runAll_crlf_wrappedName :
    Settings.IsPlain {} ∧ wrappedName.HasLineFeeds ∧ ¬ ColumnsKept {} wrappedName 12 ∧
      Check.runAll Check.all {} wrappedName = [⟨1, .missingBlock .file⟩] ∧
      Check.runAll Check.all {} wrappedName.crlf =
        [⟨1, .missingBlock .file⟩, ⟨6, .propertiesNotAligned "$a" 1 "$b" 2⟩] := by
  have hcfg : Settings.IsPlain {} := ⟨rfl, by decide, by decide⟩
  have hs : wrappedName.HasLineFeeds := ⟨rfl, by decide⟩
  have hclass : wrappedName.positions (·.isClassLike) = [12] := by decide +kernel
  have hfeed : Check.runAll Check.all {} wrappedName = [⟨1, .missingBlock .file⟩] := by
    decide +kernel
  have hreturn : Check.runAll Check.all {} wrappedName.crlf =
      [⟨1, .missingBlock .file⟩, ⟨6, .propertiesNotAligned "$a" 1 "$b" 2⟩] := by decide +kernel
  refine ⟨hcfg, hs, fun hkept => ?_, hfeed, hreturn⟩
  have halike := (runAll_crlf hcfg hs).2.1 (by simpa [hclass] using hkept)
  rw [hfeed, hreturn] at halike
  cases halike

end DocCheck
