import DocCheck.Proofs.Comment.TagList
import DocCheck.Proofs.Rule.Stage
import DocCheck.Proofs.Sink
import DocCheck.Proofs.Stream.Block

/-!
# A comment that cannot be examined

A comment that is missing, written as a plain comment, empty or malformed has that one issue, and
no rule is applied to it. The rules in turn never report such an issue, so the issues of a comment
are either a single one of this sort or none of it. For a declaration the two cases show in the
result: only a comment that could be examined gives its property declarations.
-/

namespace DocCheck

section Declarations

variable {v : Vocabulary} {eol : Text}

/-- Whether a header is one of a tag that declares a property. -/
def declaresProperty (v : Vocabulary) (header : Nat × Text) : Bool :=
  (v.get? header.2).any (·.shape = .property)

/-- An occurrence has a declaration exactly if its tag declares a property. -/
theorem RawTag.ReadsAs.map_declaration? {t : RawTag} {o : Occurrence} (h : t.ReadsAs v eol o) :
    (o.declaration?.map fun p => (p.line, p.tag)) =
      Option.guard (declaresProperty v) (o.line, o.name) := by
  obtain ⟨g, rank, element, hg, helement, ho⟩ := id h
  have hname : o.name = t.name := congrArg Prod.snd h.line_name
  have hshape : declaresProperty v (o.line, o.name) = decide (o.element.shape = .property) := by
    rw [declaresProperty, hname, hg, Option.any_some, ← RawTag.shape_element helement, ho]
  rw [Option.guard, hshape, Occurrence.declaration?]
  cases helem : o.element with
  | property p =>
    obtain ⟨hline, htag⟩ := h.declaration helem
    simp [Element.shape, hline, htag]
  | leaf | single | keyValue => simp [Element.shape]

/-- The property declarations of a comment are the headers of tags that declare one. -/
theorem Comment.map_properties_of_parse {raw : Text} {c : Comment}
    (h : Comment.parse raw v eol = .ok c) :
    c.properties.map (fun p => (p.line, p.tag)) =
      (headers (Margin.strip raw eol)).filter (declaresProperty v) := by
  have hmap := map_tags_of_parse h
  have hread : ∀ o ∈ c.tags, (o.declaration?.map fun p => (p.line, p.tag)) =
      Option.guard (declaresProperty v) (o.line, o.name) := by
    obtain ⟨tags, htags, rfl⟩ := Comment.exists_tags_of_parse h
    intro o ho
    obtain ⟨t, -, ht⟩ := exists_rawTag_of_mem htags ho
    exact ht.map_declaration?
  calc c.properties.map (fun p => (p.line, p.tag))
      = c.tags.filterMap fun o => o.declaration?.map fun p => (p.line, p.tag) := by
        rw [properties_eq, List.map_filterMap]
    _ = (c.tags.map fun o => (o.line, o.name)).filter (declaresProperty v) := by
        rw [List.filterMap_congr hread, ← List.filterMap_eq_filter, List.filterMap_map]
        rfl
    _ = (headers (Margin.strip raw eol)).filter (declaresProperty v) := by
        rw [hmap, List.filter_filter]
        apply List.filter_congr
        intro header _
        rw [declaresProperty]
        cases v.get? header.2 <;> simp

end Declarations

/-- The findings with which the examination of a comment ends: it is missing, written as a plain
comment, empty or malformed. -/
def Finding.isStructural : Finding → Bool
  | missingBlock _ | wrongStyle _ | emptyBlock _ | malformed .. => true
  | _ => false

/-- A structural issue is the only one. -/
def StructuralAlone (issues : List Issue) : Prop :=
  ∀ i ∈ issues, i.finding.isStructural → issues = [i]

/-- An issue on its own hides no other. -/
theorem StructuralAlone.singleton (i : Issue) : StructuralAlone [i] := by
  intro j hj _
  rw [List.mem_singleton.mp hj]

/-- Where nothing is structural, nothing has to be alone. -/
theorem StructuralAlone.of_none {issues : List Issue}
    (h : ∀ i ∈ issues, i.finding.isStructural = false) : StructuralAlone issues := by
  intro i hi hstructural
  rw [h i hi] at hstructural
  cases hstructural

/-- A finding is structural exactly if it was made while reading. -/
theorem Finding.isStructural_iff {f : Finding} : f.isStructural ↔ f.stage = .reading := by
  cases f <;> simp [isStructural, stage]

/-- Findings of the other stages are not structural. -/
theorem Finding.isStructural_eq_false {f : Finding} (h : f.stage ≠ .reading) :
    f.isStructural = false :=
  Bool.eq_false_iff.mpr (mt isStructural_iff.mp h)

section Rules

variable {c : Comment} {v : Vocabulary} {scope : Scope} {i : Issue}

/-- The rules on blank lines report nothing structural. -/
theorem Comment.not_isStructural_of_mem_checkSpacing (h : i ∈ c.checkSpacing scope) :
    i.finding.isStructural = false := by
  refine Finding.isStructural_eq_false ?_
  rw [stage_of_mem_checkSpacing h]
  decide

/-- The rules on tags report nothing structural, if their content rules do not. -/
theorem Comment.not_isStructural_of_mem_checkTags (hrules : v.RulesAvoid [.reading])
    (h : i ∈ c.checkTags v scope) : i.finding.isStructural = false := by
  have hstage := stage_not_mem_of_mem_checkTags hrules (by decide) (by decide) h
  exact Finding.isStructural_eq_false fun hreading => hstage (List.mem_singleton.mpr hreading)

/-- The rules for the comments of declarations report no structural issue. -/
theorem Comment.not_isStructural_of_mem_rules (hrules : v.RulesAvoid [.reading])
    (h : i ∈ c.checkSpacing scope ++ checkProperties c.properties scope ++
      c.checkUnknown scope ++ c.checkTags v scope) :
    i.finding.isStructural = false := by
  rcases List.mem_append.mp h with h | h
  · rcases List.mem_append.mp h with h | h
    · rcases List.mem_append.mp h with h | h
      · exact not_isStructural_of_mem_checkSpacing h
      · refine Finding.isStructural_eq_false ?_
        rw [stage_of_mem_checkProperties h]
        decide
    · refine Finding.isStructural_eq_false ?_
      rw [stage_of_mem_checkUnknown h]
      decide
  · exact not_isStructural_of_mem_checkTags hrules h

end Rules

section Results

variable {cfg : Settings} (hrules : cfg.RulesAvoid [.reading]) (s : Stream)
include hrules

/-- A file comment has a single structural issue or none. -/
theorem fileIssues_structural (p : Nat) :
    (∃ i, i.finding.isStructural ∧ fileIssues cfg s p = [i]) ∨
      ∀ i ∈ fileIssues cfg s p, i.finding.isStructural = false := by
  unfold fileIssues
  split
  · exact .inr fun i hi => by cases hi
  · exact .inl ⟨_, rfl, rfl⟩
  · exact .inl ⟨_, rfl, rfl⟩
  · dsimp only
    split
    · next i hread =>
      have hi := Finding.isStructural_iff.mpr (Block.stage_of_read_error hread)
      exact .inl ⟨i, hi, rfl⟩
    · refine .inr fun i hi => ?_
      rcases List.mem_append.mp hi with hi | hi
      · exact Comment.not_isStructural_of_mem_checkSpacing hi
      · exact Comment.not_isStructural_of_mem_checkTags (hrules.fileVocabulary (by decide)) hi

/-- The comment of a declaration has a single structural issue, or it was read and has none. -/
theorem examineClass_structural (c : Nat) :
    (∃ i, i.finding.isStructural ∧ examineClass cfg s c = ⟨[i], none⟩) ∨
      ∃ b comment, s.classBlock c = .found b ∧
        Comment.parse b.text cfg.classVocabulary s.eol = .ok comment ∧
        (examineClass cfg s c).properties = some comment.properties ∧
        ∀ i ∈ (examineClass cfg s c).issues, i.finding.isStructural = false := by
  unfold examineClass
  split
  · next hblock => exact absurd hblock (s.classBlock_ne_notApplicable c)
  · exact .inl ⟨_, rfl, rfl⟩
  · exact .inl ⟨_, rfl, rfl⟩
  · next b hfound =>
    dsimp only
    split
    · next i hread =>
      have hi := Finding.isStructural_iff.mpr (Block.stage_of_read_error hread)
      exact .inl ⟨i, hi, rfl⟩
    · next comment hread =>
      have hparse := Block.parse_of_read_ok hread
      have hclass := hrules.classVocabulary (by decide)
      exact .inr ⟨b, comment, hfound, hparse, rfl,
        fun i hi => Comment.not_isStructural_of_mem_rules hclass hi⟩

end Results

/-- The issues of a declaration are reported, and its properties are given back. -/
theorem run_reportClass (cfg : Settings) (s : Stream) (c : Nat) (prior : List Issue) :
    (reportClass cfg s c).run prior =
      ((examineClass cfg s c).properties, prior ++ (examineClass cfg s c).issues) :=
  Prod.ext rfl (reports_reportClass cfg s c prior)

/-- Issues are reported behind those that were reported before, which stay as they are. A structural
issue of a comment is the only one reported for it, unless the rule of a further tag reports one.
For a declaration the properties are missing exactly if such an issue was reported; otherwise they
are those of its comment, in the order of their headers in the source. -/
theorem structural_issue_reported_alone {cfg : Settings} (hrules : cfg.RulesAvoid [.reading])
    (s : Stream) (anchor : Nat) (prior : List Issue) :
    (reportFile cfg s anchor).run prior = ((), prior ++ fileIssues cfg s anchor) ∧
    StructuralAlone (fileIssues cfg s anchor) ∧
    ∃ issues properties, examineClass cfg s anchor = ⟨issues, properties⟩ ∧
      (reportClass cfg s anchor).run prior = (properties, prior ++ issues) ∧
      StructuralAlone issues ∧
      (properties = none ↔ issues.countP (·.finding.isStructural) = 1) ∧
      (properties = none ∨ ∃ b c, s.classBlock anchor = .found b ∧
        Comment.parse b.text cfg.classVocabulary s.eol = .ok c ∧
        properties = some c.properties ∧
        c.properties.map (fun p => (p.line, p.tag)) =
          (headers (Margin.strip b.text s.eol)).filter (declaresProperty cfg.classVocabulary)) := by
  refine ⟨Prod.ext rfl (reports_reportFile cfg s anchor prior), ?_,
    (examineClass cfg s anchor).issues, (examineClass cfg s anchor).properties, rfl,
    run_reportClass cfg s anchor prior, ?_⟩
  · rcases fileIssues_structural hrules s anchor with ⟨i, -, hissues⟩ | hnone
    · rw [hissues]
      exact .singleton i
    · exact .of_none hnone
  -- Either the only issue is structural and there are no properties, or the comment was read.
  · rcases examineClass_structural hrules s anchor with
      ⟨i, hi, hresult⟩ | ⟨b, c, hfound, hparse, hproperties, hnone⟩
    · rw [hresult]
      exact ⟨.singleton i, by simp [hi], .inl rfl⟩
    · have hcount : (examineClass cfg s anchor).issues.countP (·.finding.isStructural) = 0 := by
        refine List.countP_eq_zero.mpr fun i hi => ?_
        rw [hnone i hi]
        exact Bool.false_ne_true
      have hheaders := Comment.map_properties_of_parse hparse
      refine ⟨.of_none hnone, ?_, .inr ⟨b, c, hfound, hparse, hproperties, hheaders⟩⟩
      simp [hproperties, hcount]

/-- Settings with a further tag of which every occurrence is reported as unknown. -/
def tellingTodo : Settings where
  extraTags := [{
    name := "todo", shape := .single
    rule := some ⟨fun s os => os.map fun o => s.at o.line (.unknownTag s.owner o.name)⟩ }]

/-- A class whose comment has such a tag in front of a tag that should have no content. -/
def filledLeaf : Stream where
  eol := "\n"
  tokens := [⟨.openTag, "<?php\n", 1⟩, ⟨.docComment, "/**\n", 2⟩, ⟨.docComment, " * Short.\n", 3⟩,
    ⟨.docComment, " * @todo Later.\n", 4⟩, ⟨.docComment, " * @mainclass yes\n", 5⟩,
    ⟨.docComment, " */", 6⟩, ⟨.whitespace, "\n", 6⟩, ⟨.classWord, "class", 7⟩]

/-- Only the malformed tag is reported, and what was reported before stays in front of it. -/
theorem structural_issue_filledLeaf :
    tellingTodo.RulesAvoid [.reading] ∧
      ∀ prior, (reportClass tellingTodo filledLeaf 7).run prior =
        (none, prior ++ [⟨4, .malformed "mainclass" .unexpectedContent⟩]) := by
  have hrules : tellingTodo.RulesAvoid [.reading] := by
    intro g hg s os i hi
    obtain rfl := List.mem_singleton.mp hg
    obtain ⟨o, -, rfl⟩ := List.mem_map.mp hi
    simp [Scope.at, Finding.stage]
  have hclass : examineClass tellingTodo filledLeaf 7 =
      ⟨[⟨4, .malformed "mainclass" .unexpectedContent⟩], none⟩ := by decide +kernel
  refine ⟨hrules, fun prior => ?_⟩
  obtain ⟨-, -, issues, properties, hresult, hrun, -⟩ :=
    structural_issue_reported_alone hrules filledLeaf 7 prior
  obtain ⟨rfl, rfl⟩ := ClassResult.mk.inj (hresult.symm.trans hclass)
  exact hrun

end DocCheck
