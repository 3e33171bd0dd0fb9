import DocCheck.Check
import DocCheck.Proofs.Rule.Layout

/-!
# Which rule reports what

The examination of a comment has stages, and no two of them have a finding in common: a finding
tells the stage that reports it. The rules of a stage report nothing but its findings.
-/

namespace DocCheck

/-- The stages of the examination of a comment. -/
inductive Stage where
  /-- The comment is looked for and read. -/
  | reading
  /-- The blank lines around the descriptions. -/
  | spacing
  /-- The tags that have to be there. -/
  | presence
  /-- The number and the grouping of the occurrences of a tag. -/
  | repetition
  | content
  /-- The tags outside the vocabulary. -/
  | vocabulary
  | alignment
  deriving DecidableEq, Repr

/-- The stage that reports a finding. -/
def Finding.stage : Finding → Stage
  | missingBlock _ | wrongStyle _ | emptyBlock _ | malformed .. => .reading
  | extraNewlinesBeforeShort .. | blankLineBetweenDescriptions _ | blankLineBeforeTags _ => .spacing
  | missingTag .. => .presence
  | duplicateTag .. | ungroupedTags _ => .repetition
  | missingContent .. | invalidPackageName .. | emptyPackageName _ | invalidAuthor
  | copyrightSeparator | invalidYearSpan .. | invalidCopyright | invalidLicense
  | unmarkedVersion .. => .content
  | unknownTag .. => .vocabulary
  | propertyNotSeparated | propertyTypesNotAligned .. | propertiesNotAligned ..
  | missingPropertyName _ | missingPropertyType _ | missingPropertyComment ..
  | propertyCommentIndent | propertyCommentLines | mixedPropertyIndent | propertyTypeSpacing
  | propertyNameSpacing => .alignment

section Layout

variable {i : Issue} {c : Comment} {s : Scope}

/-- The rules on blank lines report in their stage. -/
theorem Comment.stage_of_mem_checkSpacing (h : i ∈ c.checkSpacing s) :
    i.finding.stage = .spacing := by
  simp only [checkSpacing, List.mem_append] at h
  grind [Scope.at, Finding.stage]

/-- Repeated and scattered tags are reported in their stage. -/
theorem Comment.stage_of_mem_checkRepetition {g : Grammar} (h : i ∈ c.checkRepetition s g) :
    i.finding.stage = .repetition := by
  unfold checkRepetition at h
  dsimp only at h
  split at h
  · cases h
  · split at h
    all_goals
      obtain ⟨o, -, rfl⟩ := Option.map_eq_some_iff.mp (Option.mem_toList.mp h)
      rfl

/-- The usual rules for the content of a tag report on nothing else. -/
theorem ContentRule.IsBuiltIn.stage_of_mem_check {rule : ContentRule} (hrule : rule.IsBuiltIn)
    {os : List Occurrence} (h : i ∈ rule.check s os) : i.finding.stage = .content := by
  obtain ⟨o, -, hi⟩ := hrule.exists_of_mem_check h
  cases hrule
  all_goals
    simp only [ContentRule.package, ContentRule.subpackage, ContentRule.authors,
      ContentRule.copyrights, ContentRule.license, ContentRule.version, ContentRule.notEmpty,
      check_each_singleton, check_last_singleton, Occurrence.checkPackageName,
      Occurrence.checkAuthor, Occurrence.checkCopyright, Occurrence.checkLicense,
      Occurrence.checkVersion, Occurrence.checkNotEmpty] at hi
    grind [Scope.at, Finding.stage]

/-- The rules of the vocabulary report nothing of these stages. -/
def Vocabulary.RulesAvoid (v : Vocabulary) (stages : List Stage) : Prop :=
  ∀ g ∈ v.grammars, ∀ s os, ∀ i ∈ g.contentRule.check s os, i.finding.stage ∉ stages

/-- The rules of the further tags report nothing of these stages. -/
def Settings.RulesAvoid (cfg : Settings) (stages : List Stage) : Prop :=
  ∀ g ∈ cfg.extraTags, ∀ s os, ∀ i ∈ g.contentRule.check s os, i.finding.stage ∉ stages

/-- The usual rules report on content only. -/
theorem ContentRule.IsBuiltIn.stage_not_mem {rule : ContentRule} (hrule : rule.IsBuiltIn)
    {stages : List Stage} (hcontent : .content ∉ stages) :
    ∀ s os, ∀ i ∈ rule.check s os, i.finding.stage ∉ stages := by
  intro s os i hi
  rwa [hrule.stage_of_mem_check hi]

section Avoiding

variable {cfg : Settings} {stages : List Stage} (h : cfg.RulesAvoid stages)
  (hcontent : .content ∉ stages)
include h hcontent

/-- The rules for file comments avoid what those of the further tags avoid, except content. -/
theorem Settings.RulesAvoid.fileVocabulary : cfg.fileVocabulary.RulesAvoid stages := by
  refine Vocabulary.forall_mem_insertAll (fun g hg => ?_) h
  exact (Vocabulary.usesBuiltInRules_fileComment g hg).stage_not_mem hcontent

/-- The rules for class comments avoid what those of the further tags avoid, except content. -/
theorem Settings.RulesAvoid.classVocabulary : cfg.classVocabulary.RulesAvoid stages := by
  refine Vocabulary.forall_mem_insertAll (fun g hg => ?_) h
  exact (Vocabulary.usesBuiltInRules_classComment g hg).stage_not_mem hcontent

end Avoiding

/-- What is reported on the tags of the vocabulary is about presence or repetition, or it comes from
the rule of a tag. -/
theorem Comment.stage_or_mem_check_of_mem_checkTags {v : Vocabulary} (h : i ∈ c.checkTags v s) :
    i.finding.stage = .presence ∨ i.finding.stage = .repetition ∨
      ∃ g ∈ v.grammars, i ∈ g.contentRule.check s (c.occurrences g.name) := by
  obtain ⟨g, hg, hi⟩ := List.mem_flatMap.mp h
  unfold checkTag at hi
  dsimp only at hi
  split at hi
  · split at hi
    · rw [List.mem_singleton.mp hi]
      exact .inl rfl
    · cases hi
  · rcases List.mem_append.mp hi with hi | hi
    · exact .inr (.inl (stage_of_mem_checkRepetition hi))
    · exact .inr (.inr ⟨g, List.mem_of_mem_filter hg, hi⟩)

/-- What is reported on the tags of the vocabulary is of no stage that its rules avoid, and neither
of presence nor of repetition if these are avoided, too. -/
theorem Comment.stage_not_mem_of_mem_checkTags {v : Vocabulary} {stages : List Stage}
    (hrules : v.RulesAvoid stages) (hpresence : .presence ∉ stages)
    (hrepetition : .repetition ∉ stages) (h : i ∈ c.checkTags v s) : i.finding.stage ∉ stages := by
  rcases stage_or_mem_check_of_mem_checkTags h with hstage | hstage | ⟨g, hg, hi⟩
  · rwa [hstage]
  · rwa [hstage]
  · exact hrules g hg s _ i hi

/-- Tags outside the vocabulary are reported in their stage. -/
theorem Comment.stage_of_mem_checkUnknown (h : i ∈ c.checkUnknown s) :
    i.finding.stage = .vocabulary := by
  obtain ⟨u, -, rfl⟩ := List.mem_map.mp h
  rfl

end Layout

section Alignment

variable {i : Issue} {s : Scope}

/-- Comments on lines of their own are reported in the stage of declarations. -/
theorem Property.stage_of_mem_checkOwnLines {p : Property} (h : i ∈ p.checkOwnLines s) :
    i.finding.stage = .alignment := by
  rcases List.mem_append.mp h with h | h
  · grind [Scope.at, Finding.stage]
  · obtain ⟨⟨l, k⟩, -, hl⟩ := List.mem_filterMap.mp h
    grind [Scope.at, Finding.stage]

namespace Alignment

/-- A step of the walk over the declarations reports in their stage. -/
theorem stage_of_mem_check {st : State} {p : Property} (h : i ∈ st.check p s) :
    i.finding.stage = .alignment := by
  simp only [State.check, List.mem_append] at h
  rcases h with (h | h) | h
  · grind [Property.checkColumns, Scope.at, Finding.stage]
  · grind [Property.checkParts, Scope.at, Finding.stage]
  · split at h
    · exact Property.stage_of_mem_checkOwnLines h
    · cases h

/-- The end of the walk over the declarations reports in their stage. -/
theorem stage_of_mem_close {st : State} (h : i ∈ st.close s) : i.finding.stage = .alignment := by
  simp only [State.close, List.mem_append, Option.mem_toList, Option.map_eq_some_iff] at h
  grind [Scope.at, Finding.stage]

/-- The whole walk over the declarations reports in their stage. -/
theorem stage_of_mem_walk {st : State} {ps : List Property} (h : i ∈ walk s st ps) :
    i.finding.stage = .alignment := by
  induction ps generalizing st with
  | nil => exact stage_of_mem_close h
  | cons p ps ih =>
    rcases List.mem_append.mp h with h | h
    · exact stage_of_mem_check h
    · exact ih h

end Alignment

/-- All rules on declarations report in their stage. -/
theorem stage_of_mem_checkProperties {ps : List Property} (h : i ∈ checkProperties ps s) :
    i.finding.stage = .alignment := by
  unfold checkProperties at h
  split at h
  · cases h
  · rcases List.mem_append.mp h with h | h
    · grind [Scope.at, Finding.stage]
    · exact Alignment.stage_of_mem_walk h

end Alignment

/-- A block that cannot be examined has an issue of reading. -/
theorem Block.stage_of_read_error {b : Block} {v : Vocabulary} {s : Scope} {i : Issue}
    (h : b.read v s = .error i) : i.finding.stage = .reading := by
  unfold Block.read at h
  split at h
  · cases h
    rfl
  · split at h <;> cases h
    rfl

end DocCheck
