import DocCheck.Check

/-!
# The rules of the usual tags

A rule for the content of a tag can be any function. The rules of the usual tags examine the
occurrences one by one, all of them or the last one only, so that what they find they find in a
single occurrence. The tags of a file or class comment have such rules, and so have the vocabularies
of settings whose further tags do.
-/

namespace DocCheck

namespace ContentRule

/-- The rules of the usual tags. -/
inductive IsBuiltIn : ContentRule → Prop where
  | package : IsBuiltIn package
  | subpackage : IsBuiltIn subpackage
  | authors : IsBuiltIn authors
  | copyrights : IsBuiltIn copyrights
  | license : IsBuiltIn license
  | version : IsBuiltIn version
  | notEmpty : IsBuiltIn notEmpty

variable {rule : ContentRule} {s : Scope} {os : List Occurrence} {i : Issue}

/-- What a rule of a usual tag finds, it finds in one of the occurrences. -/
theorem IsBuiltIn.exists_of_mem_check (hrule : rule.IsBuiltIn) (h : i ∈ rule.check s os) :
    ∃ o ∈ os, i ∈ rule.check s [o] := by
  cases hrule with
  | package | subpackage | license | version =>
    obtain ⟨o, ho, hi⟩ := mem_check_last.mp h
    exact ⟨o, List.mem_of_getLast? ho, (check_last_singleton o).symm ▸ hi⟩
  | authors | copyrights | notEmpty =>
    obtain ⟨o, ho, hi⟩ := mem_check_each.mp h
    exact ⟨o, ho, (check_each_singleton o).symm ▸ hi⟩

/-- A rule of a usual tag finds nothing if it finds nothing in any of the occurrences. -/
theorem IsBuiltIn.check_eq_nil (hrule : rule.IsBuiltIn) (h : ∀ o ∈ os, rule.check s [o] = []) :
    rule.check s os = [] := by
  refine List.eq_nil_iff_forall_not_mem.mpr fun i hi => ?_
  obtain ⟨o, ho, hfound⟩ := hrule.exists_of_mem_check hi
  rw [h o ho] at hfound
  cases hfound

end ContentRule

section Vocabularies

/-- The grammars after an entry are the new one and some of the old ones. -/
theorem Grammar.mem_enter {g h : Grammar} {gs : List Grammar} (hmem : h ∈ g.enter gs) :
    h = g ∨ h ∈ gs := by
  induction gs with
  | nil => exact .inl (List.mem_singleton.mp hmem)
  | cons first gs ih =>
    unfold Grammar.enter at hmem
    split at hmem
    · rcases List.mem_cons.mp hmem with rfl | hmem
      · exact .inl rfl
      · exact .inr (List.mem_cons_of_mem _ hmem)
    · rcases List.mem_cons.mp hmem with rfl | hmem
      · exact .inr List.mem_cons_self
      · exact (ih hmem).imp_right (List.mem_cons_of_mem _)

/-- What holds of the old grammars and of those that are entered holds of all. -/
theorem Vocabulary.forall_mem_insertAll {p : Grammar → Prop} {v : Vocabulary} {gs : List Grammar}
    (hv : ∀ g ∈ v.grammars, p g) (hgs : ∀ g ∈ gs, p g) : ∀ g ∈ (v.insertAll gs).grammars, p g := by
  induction gs generalizing v with
  | nil => exact hv
  | cons g gs ih =>
    obtain ⟨hg, hgs⟩ := List.forall_mem_cons.mp hgs
    refine ih (fun h hh => ?_) hgs
    rcases Grammar.mem_enter hh with rfl | hh
    · exact hg
    · exact hv h hh

/-- Every tag of the vocabulary has one of the usual rules. -/
def Vocabulary.UsesBuiltInRules (v : Vocabulary) : Prop :=
  ∀ g ∈ v.grammars, g.contentRule.IsBuiltIn

/-- Every further tag has one of the usual rules. -/
def Settings.UsesBuiltInRules (cfg : Settings) : Prop :=
  ∀ g ∈ cfg.extraTags, g.contentRule.IsBuiltIn

/-- The tags of a file comment have the usual rules. -/
theorem Vocabulary.usesBuiltInRules_fileComment : fileComment.UsesBuiltInRules := by
  simp only [UsesBuiltInRules, fileComment, List.forall_mem_cons]
  exact ⟨.notEmpty, .package, .subpackage, .authors, .copyrights, .license, .version, .notEmpty,
    .notEmpty, by simp⟩

/-- The tags of a class comment have the usual rules. -/
theorem Vocabulary.usesBuiltInRules_classComment : classComment.UsesBuiltInRules := by
  simp only [UsesBuiltInRules, classComment, List.forall_mem_cons]
  exact ⟨.package, .version, .notEmpty, .notEmpty, .notEmpty, .notEmpty, .notEmpty, .notEmpty,
    .notEmpty, .notEmpty, .notEmpty, .notEmpty, .notEmpty, .notEmpty, .notEmpty, .notEmpty,
    .notEmpty, by simp⟩

variable {cfg : Settings} (h : cfg.UsesBuiltInRules)
include h

/-- With the usual rules for further tags, all tags of file comments have usual rules. -/
theorem Settings.UsesBuiltInRules.fileVocabulary : cfg.fileVocabulary.UsesBuiltInRules :=
  Vocabulary.forall_mem_insertAll Vocabulary.usesBuiltInRules_fileComment h

/-- With the usual rules for further tags, all tags of class comments have usual rules. -/
theorem Settings.UsesBuiltInRules.classVocabulary : cfg.classVocabulary.UsesBuiltInRules :=
  Vocabulary.forall_mem_insertAll Vocabulary.usesBuiltInRules_classComment h

end Vocabularies

end DocCheck
