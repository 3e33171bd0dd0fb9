import DocCheck.Proofs.LineEnding.Comment
import DocCheck.Proofs.LineEnding.Content
import DocCheck.Proofs.Rule.BuiltIn

/-!
# Line ends and the rules

Every rule but the ones on columns reports the same issues under both line ends. The texts in a
finding have the line ends of the source.
-/

namespace DocCheck

open Text

/-- The finding with the line ends of its texts written with carriage returns. -/
def Finding.crlf : Finding → Finding
  | malformed tag fault => malformed tag.crlf fault
  | missingTag owner tag => missingTag owner tag.crlf
  | duplicateTag owner tag => duplicateTag owner tag.crlf
  | ungroupedTags tag => ungroupedTags tag.crlf
  | missingContent owner tag => missingContent owner tag.crlf
  | unknownTag owner tag => unknownTag owner tag.crlf
  | invalidPackageName tag name suggestion =>
    invalidPackageName tag.crlf name.crlf suggestion.crlf
  | emptyPackageName tag => emptyPackageName tag.crlf
  | invalidYearSpan found suggestion => invalidYearSpan found.crlf suggestion.crlf
  | unmarkedVersion owner version suggestion =>
    unmarkedVersion owner version.crlf suggestion.crlf
  | propertyTypesNotAligned type column previous previousColumn =>
    propertyTypesNotAligned type.crlf column previous.crlf previousColumn
  | propertiesNotAligned previous previousRank name rank =>
    propertiesNotAligned previous.crlf previousRank name.crlf rank
  | missingPropertyComment name rank => missingPropertyComment name.crlf rank
  | finding => finding

/-- The issue with the line ends of its texts written with carriage returns. -/
def Issue.crlf (i : Issue) : Issue := { i with finding := i.finding.crlf }

/-- An issue that is reported under a condition. -/
theorem Issue.map_crlf_ite (c : Prop) [Decidable c] (i : Issue) :
    (if c then [] else [i]).map Issue.crlf = if c then [] else [i.crlf] := by
  split <;> rfl

/-- The scope of the same block in a source with carriage returns. -/
def Scope.crlf (s : Scope) : Scope := { s with eol := "\r\n" }

/-- A line of a block is at the same position. -/
theorem Scope.at_crlf (s : Scope) (line : Nat) (finding : Finding) :
    (s.at line finding).crlf = s.crlf.at line finding.crlf := rfl

/-- A finding that gives only the name of a tag, which lies on one line, is reported alike. -/
theorem Scope.at_name_crlf (s : Scope) {name : Text} (hname : '\n' ∉ name) (line : Nat)
    (finding : Text → Finding) (hf : (finding name).crlf = finding name.crlf) :
    [s.crlf.at line (finding name)] = [s.at line (finding name)].map Issue.crlf := by
  rw [List.map_singleton, at_crlf, hf, crlf_eq_self hname]

namespace Occurrence

variable (s : Scope)

/-- The rule for licenses reports alike. -/
theorem checkLicense_crlf (o : Occurrence) :
    o.crlfTexts.checkLicense s.crlf = (o.checkLicense s).map Issue.crlf := by
  obtain ⟨name, container, line, above, element⟩ := o
  cases element with
  | keyValue value comment =>
    simp only [checkLicense, crlfTexts, Element.crlfTexts, crlf_isEmpty]
    split <;> rfl
  | _ => rfl

variable {o : Occurrence} (ho : o.HasLineFeeds)

include ho

/-- The content of a declaration is its type, which lies on one line. -/
theorem content_crlf : o.crlfTexts.content = o.content.crlf := by
  obtain ⟨name, container, line, above, element⟩ := o
  cases element with
  | property p => exact (crlf_eq_self (ho.declaration p rfl).type).symm
  | _ => rfl

/-- The rule for package names reports alike. -/
theorem checkPackageName_crlf :
    o.crlfTexts.checkPackageName s.crlf = (o.checkPackageName s).map Issue.crlf := by
  have hname : o.name.crlf = o.name := crlf_eq_self ho.name
  simp only [checkPackageName, content_crlf ho, crlf_isEmpty, isUnderscoreName_crlf,
    suggestUnderscoreName_crlf]
  split
  · exact s.at_name_crlf ho.name o.line .emptyPackageName rfl
  · split
    · rfl
    · simp only [List.map_singleton, Scope.at_crlf, Finding.crlf, hname]
      rfl

/-- The rule for authors reports alike. -/
theorem checkAuthor_crlf : o.crlfTexts.checkAuthor s.crlf = (o.checkAuthor s).map Issue.crlf := by
  simp only [checkAuthor, content_crlf ho, crlf_isEmpty, Author.accepts_crlf]
  split
  · exact s.at_name_crlf ho.name o.line (.missingContent s.owner) rfl
  · split <;> rfl

/-- The rule for copyrights reports alike. -/
theorem checkCopyright_crlf :
    o.crlfTexts.checkCopyright s.crlf = (o.checkCopyright s).map Issue.crlf := by
  simp only [checkCopyright, content_crlf ho, CopyrightYears.ofText?_crlf]
  split
  · rfl
  · rfl
  · next first separator last hspan =>
    -- The years stand on one line, so the texts of the finding have no line end to replace.
    have hline := CopyrightYears.not_mem_of_ofText? hspan
    have hfound : Text.crlf (first ++ separator :: last) = first ++ separator :: last :=
      crlf_eq_self hline
    have hswapped : Text.crlf (last ++ '-' :: first) = last ++ '-' :: first := by
      simp only [List.mem_append, List.mem_cons, not_or] at hline
      exact crlf_eq_self (by simp [hline])
    rw [List.map_append]
    congr 1
    · split <;> rfl
    · split
      · rw [List.map_singleton, Scope.at_crlf]
        exact congrArg (fun finding => [s.crlf.at o.line finding])
          (congrArg₂ Finding.invalidYearSpan hfound.symm hswapped.symm)
      · rfl

/-- The rule that asks for some content reports alike. -/
theorem checkNotEmpty_crlf :
    o.crlfTexts.checkNotEmpty s.crlf = (o.checkNotEmpty s).map Issue.crlf := by
  have hleaf : o.crlfTexts.element ≠ .leaf ↔ o.element ≠ .leaf := by
    obtain ⟨name, container, line, above, element⟩ := o
    cases element <;> simp [crlfTexts, Element.crlfTexts]
  simp only [checkNotEmpty, content_crlf ho, crlf_isEmpty, hleaf]
  split
  · exact s.at_name_crlf ho.name o.line (.missingContent s.owner) rfl
  · rfl

variable {s} (hmarkers : ∀ m ∈ s.versionMarkers, '\r' ∉ m ∧ '\n' ∉ m)

include hmarkers

/-- The rule for versions reports alike if the markers it looks for have no line end in them. -/
theorem checkVersion_crlf :
    o.crlfTexts.checkVersion s.crlf = (o.checkVersion s).map Issue.crlf := by
  have hany : s.versionMarkers.any (o.content.crlf.contains ·) =
      s.versionMarkers.any (o.content.contains ·) := by
    rw [Bool.eq_iff_iff, List.any_eq_true, List.any_eq_true]
    apply exists_congr
    intro m
    apply and_congr_right
    intro hm
    rw [contains_crlf (hmarkers m hm).1 (hmarkers m hm).2]
  have hlist : (listMarkers s.versionMarkers).crlf = listMarkers s.versionMarkers := by
    have hsep : Text.crlf " or " = " or " := crlf_eq_self (by decide)
    rw [listMarkers, crlf_join, hsep, List.map_map]
    refine congrArg (Text.join _) (List.map_congr_left fun m hm => crlf_eq_self ?_)
    simp [(hmarkers m hm).2]
  have heq : s.crlf.versionMarkers = s.versionMarkers := rfl
  simp only [checkVersion, content_crlf ho, crlf_isEmpty, heq, hany]
  split
  · exact s.at_name_crlf ho.name o.line (.missingContent s.owner) rfl
  · split
    · rfl
    · rw [List.map_singleton, Scope.at_crlf]
      exact congrArg (fun suggestion => [s.crlf.at o.line
        (.unmarkedVersion s.owner o.content.crlf suggestion)]) hlist.symm

end Occurrence

namespace ContentRule

section Examination

variable {examine : Scope → Occurrence → List Issue} {s : Scope} {os : List Occurrence}
  (h : ∀ o ∈ os, examine s.crlf o.crlfTexts = (examine s o).map Issue.crlf)

include h

/-- A rule for every occurrence reports the same if its examination does. -/
theorem check_each_crlf :
    (each examine).check s.crlf (os.map Occurrence.crlfTexts) =
      ((each examine).check s os).map Issue.crlf := by
  simp only [each, List.flatMap_map, List.map_flatMap]
  exact List.flatMap_congr h

/-- A rule for the last occurrence reports the same if its examination does. -/
theorem check_last_crlf :
    (last examine).check s.crlf (os.map Occurrence.crlfTexts) =
      ((last examine).check s os).map Issue.crlf := by
  simp only [last, List.getLast?_map]
  cases hlast : os.getLast? with
  | none => rfl
  | some o => simp [h o (List.mem_of_getLast? hlast)]

end Examination

/-- Every usual rule for the content of a tag reports the same. -/
theorem IsBuiltIn.check_crlf {s : Scope}
    (hmarkers : ∀ m ∈ s.versionMarkers, '\r' ∉ m ∧ '\n' ∉ m) {rule : ContentRule}
    (hrule : rule.IsBuiltIn) {os : List Occurrence} (hos : ∀ o ∈ os, o.HasLineFeeds) :
    rule.check s.crlf (os.map Occurrence.crlfTexts) = (rule.check s os).map Issue.crlf := by
  cases hrule with
  | package => exact check_last_crlf fun o ho => Occurrence.checkPackageName_crlf s (hos o ho)
  | subpackage => exact check_last_crlf fun o ho => Occurrence.checkPackageName_crlf s (hos o ho)
  | authors => exact check_each_crlf fun o ho => Occurrence.checkAuthor_crlf s (hos o ho)
  | copyrights => exact check_each_crlf fun o ho => Occurrence.checkCopyright_crlf s (hos o ho)
  | license => exact check_last_crlf fun o _ => Occurrence.checkLicense_crlf s o
  | version => exact check_last_crlf fun o ho => Occurrence.checkVersion_crlf (hos o ho) hmarkers
  | notEmpty => exact check_each_crlf fun o ho => Occurrence.checkNotEmpty_crlf s (hos o ho)

end ContentRule

namespace Comment

variable (c : Comment)

/-- The occurrences of a tag are found by its name, which stays. -/
theorem occurrences_crlf (name : Text) :
    c.crlfTexts.occurrences name = (c.occurrences name).map Occurrence.crlfTexts := by
  rw [occurrences, crlfTexts, List.filter_map, occurrences]
  rfl

/-- The first occurrence out of its place is the same one. -/
theorem firstStray?_crlf (expected : Nat) (os : List (Occurrence × Nat)) :
    firstStray? expected (os.map (Prod.map Occurrence.crlfTexts id)) =
      (firstStray? expected os).map Occurrence.crlfTexts := by
  induction os generalizing expected with
  | nil => rfl
  | cons o os ih =>
    obtain ⟨o, index⟩ := o
    simp only [List.map_cons, Prod.map_apply, id_eq, firstStray?, ih]
    split <;> rfl

/-- Repetition and grouping of a tag are reported alike. -/
theorem checkRepetition_crlf (s : Scope) {g : Grammar} (hg : '\n' ∉ g.name) :
    c.crlfTexts.checkRepetition s.crlf g = (c.checkRepetition s g).map Issue.crlf := by
  have hindexes : c.crlfTexts.indexes g.name = c.indexes g.name := rfl
  have hzip : ((c.occurrences g.name).map Occurrence.crlfTexts).zip (c.indexes g.name) =
      ((c.occurrences g.name).zip (c.indexes g.name)).map (Prod.map Occurrence.crlfTexts id) := by
    rw [← List.zip_map, List.map_id]
  simp only [checkRepetition, occurrences_crlf, hindexes, List.length_map, hzip,
    firstStray?_crlf, List.getLast?_map, Option.map_map]
  split
  · rfl
  · split
    · cases firstStray? _ _ with
      | none => rfl
      | some o => exact s.at_name_crlf hg o.line .ungroupedTags rfl
    · cases (c.occurrences g.name).getLast? with
      | none => rfl
      | some o => exact s.at_name_crlf hg o.line (.duplicateTag s.owner) rfl

/-- A comment is empty under both line ends or under none. -/
theorem isEmpty_crlf : c.crlfTexts.isEmpty = c.isEmpty := by
  simp only [isEmpty, crlfTexts, crlf_isEmpty]
  rfl

variable {c} (hc : c.HasLineFeeds)

include hc

/-- The rules on tags report alike. -/
theorem checkTags_crlf {s : Scope} (hmarkers : ∀ m ∈ s.versionMarkers, '\r' ∉ m ∧ '\n' ∉ m)
    {v : Vocabulary} (hrules : v.UsesBuiltInRules) (hv : ∀ g ∈ v.grammars, '\n' ∉ g.name) :
    c.crlfTexts.checkTags v s.crlf = (c.checkTags v s).map Issue.crlf := by
  rw [checkTags, checkTags, List.map_flatMap]
  apply List.flatMap_congr
  intro g hg
  have hmem := List.mem_of_mem_filter hg
  have hname := hv g hmem
  have hmissing : (Finding.missingTag s.owner g.name).crlf = .missingTag s.owner g.name :=
    congrArg (Finding.missingTag s.owner) (crlf_eq_self hname)
  have hos : ∀ o ∈ c.occurrences g.name, o.HasLineFeeds := fun o ho =>
    hc.tags o (List.mem_of_mem_filter ho)
  simp only [checkTag, occurrences_crlf, List.isEmpty_map]
  split
  · split
    · rw [List.map_singleton, Issue.crlf, hmissing]
      rfl
    · rfl
  · rw [checkRepetition_crlf c s hname, (hrules g hmem).check_crlf hmarkers hos, List.map_append]

/-- Tags outside the vocabulary are reported alike. -/
theorem checkUnknown_crlf (s : Scope) :
    c.crlfTexts.checkUnknown s.crlf = (c.checkUnknown s).map Issue.crlf := by
  rw [checkUnknown, checkUnknown, List.map_map]
  apply List.map_congr_left
  intro u hu
  exact congrArg (fun name => s.crlf.at u.line (.unknownTag s.owner name))
    (crlf_eq_self (hc.unknown u hu)).symm

/-- The rules on blank lines report alike. -/
theorem checkSpacing_crlf {s : Scope} (heol : s.eol = "\n") :
    c.crlfTexts.checkSpacing s.crlf = (c.checkSpacing s).map Issue.crlf := by
  have hcount : c.crlfTexts.between.count s.crlf.eol = c.between.count s.eol := by
    rw [heol]
    exact count_lineEnd_crlf hc.between
  have hshort : c.crlfTexts.short.isEmpty = c.short.isEmpty := crlf_isEmpty c.short
  have hlong : c.crlfTexts.hasLong = c.hasLong := congrArg (!·) (crlf_isEmpty c.long)
  simp only [checkSpacing, hcount, hshort, hlong, List.map_append]
  refine congrArg₂ _ (congrArg₂ _ ?_ ?_) ?_
  all_goals
    simp only [apply_ite (List.map Issue.crlf)]
    rfl

end Comment

end DocCheck
