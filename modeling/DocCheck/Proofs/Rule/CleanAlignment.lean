import DocCheck.Proofs.Rule.Alignment

/-!
# Property declarations without an issue

The pass compares the columns of neighbours only, and only if both have their comments on their
lines. Its silence says more: all declarations have their comments in the same style, and either all
of them have the same columns, or each comment stands under the type of its declaration.
-/

namespace DocCheck

/-- All comments stand on the lines of their declarations, and all declarations line up. -/
structure InColumns (ps : List Property) (eol : Text) : Prop where
  inline : ∀ p ∈ ps, ¬ eol <:+: p.beforeComment
  columns : ∀ p ∈ ps, ∀ q ∈ ps, p.typeColumn = q.typeColumn ∧ p.nameColumn = q.nameColumn ∧
    p.commentColumn = q.commentColumn
  commentGap : (ps.map fun p => countSpaces p.beforeComment).min? = some 1

/-- All comments stand on lines of their own, indented to the type. -/
structure UnderTypes (ps : List Property) (eol : Text) : Prop where
  below : ∀ p ∈ ps, eol <:+: p.beforeComment
  indented : ∀ p ∈ ps, (p.beforeComment.behindLast eol).byteLength = p.tag.byteLength + 3
  furtherLines : ∀ p ∈ ps, ∀ l ∈ (p.comment.splitOn eol).tail, l.isBlank = false →
    p.beforeComment.behindLast eol <+: l

/-- The declarations are complete, set apart from what stands above them, and aligned. -/
structure Aligned (ps : List Property) (eol : Text) : Prop where
  separated : ∀ p ∈ ps.head?, p.above.count eol = 2
  complete : ∀ p ∈ ps, p.type ≠ [] ∧ p.name ≠ [] ∧ p.comment.isBlank = false
  nameGap : (ps.map fun p => countSpaces p.beforeName).min? = some 1
  comments : InColumns ps eol ∨ UnderTypes ps eol

namespace Property

variable {p q : Property} {s : Scope}

/-- The columns of type, name and comment. -/
def columns (p : Property) : Nat × Nat × Nat := (p.typeColumn, p.nameColumn, p.commentColumn)

/-- Nothing is reported about neighbours exactly if all their columns agree. -/
theorem checkColumns_eq_nil_iff : p.checkColumns q s = [] ↔ p.columns = q.columns := by
  simp [checkColumns, alignsWith, columns]

/-- Nothing is reported about the parts exactly if all are there. -/
theorem checkParts_eq_nil_iff :
    p.checkParts s = [] ↔ p.type ≠ [] ∧ p.name ≠ [] ∧ p.comment.isBlank = false := by
  simp only [checkParts, List.append_eq_nil_iff, ite_eq_right_iff, List.cons_ne_nil, imp_false,
    List.isEmpty_iff, Bool.not_eq_true]
  exact and_assoc.trans and_left_comm

/-- A comment has lines of its own exactly if the gap in front of it holds a line end. -/
theorem ownLine_iff {eol : Text} : p.ownLine eol ↔ eol <:+: p.beforeComment := by
  rw [ownLine_eq_contains, Text.contains_iff_infix]

/-- There is no issue with the lines of a comment exactly if it is indented to the type and its
further lines as the first one. -/
theorem checkOwnLines_eq_nil_iff :
    p.checkOwnLines s = [] ↔
      (p.beforeComment.behindLast s.eol).byteLength = p.tag.byteLength + 3 ∧
      ∀ l ∈ (p.comment.splitOn s.eol).tail, l.isBlank = false →
        p.beforeComment.behindLast s.eol <+: l := by
  have hlines : (p.comment.splitOn s.eol).tail =
      ((p.comment.splitOn s.eol).zipIdx.drop 1).map (·.1) := by
    rw [List.map_drop, List.zipIdx_map_fst, List.drop_one]
  rw [hlines, List.forall_mem_map, ← indentation_eq_behindLast]
  simp [checkOwnLines, List.filterMap_eq_nil_iff, or_iff_not_imp_left]

/-- There is no issue with a declaration alone. -/
theorem checkAlone_eq_nil_iff :
    p.checkAlone s = [] ↔
      (p.type ≠ [] ∧ p.name ≠ [] ∧ p.comment.isBlank = false) ∧
      (s.eol <:+: p.beforeComment →
        (p.beforeComment.behindLast s.eol).byteLength = p.tag.byteLength + 3 ∧
        ∀ l ∈ (p.comment.splitOn s.eol).tail, l.isBlank = false →
          p.beforeComment.behindLast s.eol <+: l) := by
  rw [checkAlone, List.append_eq_nil_iff, checkParts_eq_nil_iff, ite_eq_right_iff, ownLine_iff,
    checkOwnLines_eq_nil_iff]

end Property

/-- Two neighbours with their comments on their lines have the same columns. -/
def SameColumns (eol : Text) (previous p : Property) : Prop :=
  ¬ eol <:+: previous.beforeComment → ¬ eol <:+: p.beforeComment → p.columns = previous.columns

namespace Alignment.State

variable {st : State} {seen : List Property} {s : Scope}

/-- One step: there is no issue with the columns of a declaration exactly if they are those of the
one before. -/
theorem checkColumns_eq_nil_iff (h : st.Summarizes seen s.eol) (p : Property) :
    st.checkColumns p s = [] ↔ ∀ q ∈ seen.getLast?, SameColumns s.eol q p := by
  rw [checkColumns, h.previous]
  cases seen.getLast? with
  | none => simp
  | some q =>
    simp only [Option.map_some, Option.mem_some_iff, forall_eq', SameColumns,
      ← Property.ownLine_iff, Bool.not_eq_true]
    cases q.ownLine s.eol with
    | true => simp
    | false => cases p.ownLine s.eol <;> simp [Property.checkColumns_eq_nil_iff]

/-- The whole pass: there is no issue with single declarations exactly if there is none with each of
them alone, and all neighbours have the same columns. -/
theorem checkEach_eq_nil_iff (h : st.Summarizes seen s.eol) (ps : List Property) :
    st.checkEach s ps = [] ↔
      (∀ p ∈ ps, p.checkAlone s = []) ∧
        (seen.getLast?.toList ++ ps).IsChain (SameColumns s.eol) := by
  induction ps generalizing st seen with
  | nil => cases seen.getLast? <;> simp [checkEach]
  | cons p ps ih =>
    have hnext := ih (h.next p)
    rw [List.getLast?_concat, Option.toList_some, List.singleton_append] at hnext
    have hchain : (seen.getLast?.toList ++ p :: ps).IsChain (SameColumns s.eol) ↔
        (∀ q ∈ seen.getLast?, SameColumns s.eol q p) ∧ (p :: ps).IsChain (SameColumns s.eol) := by
      cases seen.getLast? <;> simp
    rw [checkEach, List.append_eq_nil_iff, check_eq, List.append_eq_nil_iff,
      checkColumns_eq_nil_iff h, hnext, hchain, List.forall_mem_cons]
    tauto

end Alignment.State

/-- If neighbours have the same columns and all comments stand on the lines of their declarations,
all declarations have the same columns. -/
theorem columns_eq_of_isChain {eol : Text} {p : Property} {ps : List Property}
    (hchain : (p :: ps).IsChain (SameColumns eol))
    (hinline : ∀ q ∈ p :: ps, ¬ eol <:+: q.beforeComment) :
    ∀ q ∈ p :: ps, q.columns = p.columns := by
  induction ps generalizing p with
  | nil => simp
  | cons q ps ih =>
    obtain ⟨hpq, hrest⟩ := List.isChain_cons_cons.mp hchain
    obtain ⟨hp, hinline⟩ := List.forall_mem_cons.mp hinline
    have hcolumns : q.columns = p.columns := hpq hp (hinline q List.mem_cons_self)
    refine List.forall_mem_cons.mpr ⟨rfl, fun r hr => ?_⟩
    exact (ih hrest hinline r hr).trans hcolumns

section Overall

variable {s : Scope}

/-- Nothing is reported about a gap exactly if it is one space at its narrowest. -/
theorem gapIssue_eq_nil_iff (width : Property → Nat) (finding : Finding) {ps : List Property}
    (hps : ps ≠ []) :
    gapIssue s width ps finding = [] ↔ (ps.map width).min? = some 1 := by
  have hissue : ((firstNarrowest? width ps).map fun p => s.at p.line finding).toList ≠ [] := by
    simpa [firstNarrowest?_eq_none_iff] using hps
  rw [gapIssue, ite_eq_left_iff, imp_iff_not hissue, not_not]

/-- A comment is below its declaration exactly if the gap in front of it holds a line end. -/
theorem isBelow_iff {p : Property} {eol : Text} : p.isBelow eol ↔ eol <:+: p.beforeComment :=
  Text.contains_iff_infix

/-- No declaration differs in style exactly if all are like the first. -/
theorem firstInOtherStyle?_eq_none_iff {eol : Text} {first : Property} {others : List Property} :
    firstInOtherStyle? eol (first :: others) = none ↔
      ∀ p ∈ first :: others, (eol <:+: first.beforeComment ↔ eol <:+: p.beforeComment) := by
  rw [firstInOtherStyle?, List.find?_eq_none]
  refine forall₂_congr fun p _ => ?_
  rw [← isBelow_iff, ← isBelow_iff, ← Bool.eq_iff_iff]
  simp

/-- There is no issue with all declarations together exactly if all comments are in the style of the
first one, and the narrowest gaps are one space wide. -/
theorem overallIssues_eq_nil_iff {first : Property} {others : List Property}
    (hcomment : ∀ p ∈ first :: others, p.comment.isBlank = false) :
    overallIssues (first :: others) s = [] ↔
      (∀ p ∈ first :: others, (s.eol <:+: first.beforeComment ↔ s.eol <:+: p.beforeComment)) ∧
      ((first :: others).map fun p => countSpaces p.beforeName).min? = some 1 ∧
      (¬ s.eol <:+: first.beforeComment →
        ((first :: others).map fun p =>
          countSpaces (p.beforeComment.behindLast s.eol)).min? = some 1) := by
  have hall : (first :: others).filter (!·.comment.isBlank) = first :: others :=
    List.filter_eq_self.mpr fun p hp => by simp [hcomment p hp]
  have hne := List.cons_ne_nil first others
  rw [overallIssues, hall, if_neg hne, List.append_eq_nil_iff, List.append_eq_nil_iff, and_assoc,
    Option.toList_eq_nil_iff, Option.map_eq_none_iff, firstInOtherStyle?_eq_none_iff,
    gapIssue_eq_nil_iff _ _ hne]
  refine and_congr_right fun hstyle => and_congr_right fun _ => ?_
  have hlast : (first :: others).getLast?.any (·.isBelow s.eol) ↔
      s.eol <:+: first.beforeComment := by
    rw [List.getLast?_eq_some_getLast hne, Option.any_some, isBelow_iff,
      hstyle _ (List.getLast_mem hne)]
  rw [ite_eq_left_iff, hlast, gapIssue_eq_nil_iff _ _ hne]

end Overall

/-- Without a separator a text is all behind the last one. -/
theorem Text.behindLast_of_not_infix {t sep : Text} (h : ¬ sep <:+: t) : t.behindLast sep = t := by
  rw [behindLast, ← afterLast?_eq, afterLast?_eq_none_iff.mpr h, Option.getD_none]

section Silence

variable {first : Property} {others : List Property} {s : Scope}

/-- What silence says about each report of the pass. -/
theorem checkProperties_cons_eq_nil_iff :
    checkProperties (first :: others) s = [] ↔
      first.above.count s.eol = 2 ∧ (∀ p ∈ first :: others, p.checkAlone s = []) ∧
        (first :: others).IsChain (SameColumns s.eol) ∧ overallIssues (first :: others) s = [] := by
  rw [checkProperties_eq, List.append_eq_nil_iff, List.append_eq_nil_iff,
    Alignment.State.checkEach_eq_nil_iff (Alignment.State.summarizes_nil s.eol)]
  simp [and_assoc]

/-- On the line of its declaration a comment has its whole gap in front. -/
theorem map_countSpaces_behindLast {ps : List Property} {eol : Text}
    (h : ∀ p ∈ ps, ¬ eol <:+: p.beforeComment) :
    ps.map (fun p => countSpaces (p.beforeComment.behindLast eol)) =
      ps.map fun p => countSpaces p.beforeComment :=
  List.map_congr_left fun p hp => by rw [Text.behindLast_of_not_infix (h p hp)]

/-- Where nothing is reported, all declarations are aligned. -/
theorem Aligned.of_checkProperties_eq_nil (h : checkProperties (first :: others) s = []) :
    Aligned (first :: others) s.eol := by
  obtain ⟨habove, halone, hchain, hoverall⟩ := checkProperties_cons_eq_nil_iff.mp h
  have hcomplete : ∀ p ∈ first :: others,
      p.type ≠ [] ∧ p.name ≠ [] ∧ p.comment.isBlank = false := fun p hp =>
    (Property.checkAlone_eq_nil_iff.mp (halone p hp)).1
  obtain ⟨hstyle, hname, hcomment⟩ :=
    (overallIssues_eq_nil_iff fun p hp => (hcomplete p hp).2.2).mp hoverall
  refine ⟨fun p hp => Option.mem_some_iff.mp hp ▸ habove, hcomplete, hname, ?_⟩
  by_cases hbelow : s.eol <:+: first.beforeComment
  · have hall : ∀ p ∈ first :: others, s.eol <:+: p.beforeComment := fun p hp =>
      (hstyle p hp).mp hbelow
    have hlines (p : Property) (hp : p ∈ first :: others) :=
      (Property.checkAlone_eq_nil_iff.mp (halone p hp)).2 (hall p hp)
    exact .inr ⟨hall, fun p hp => (hlines p hp).1, fun p hp => (hlines p hp).2⟩
  · have hinline : ∀ p ∈ first :: others, ¬ s.eol <:+: p.beforeComment := fun p hp hp' =>
      hbelow ((hstyle p hp).mpr hp')
    have hcolumns := columns_eq_of_isChain hchain hinline
    refine .inl ⟨hinline, fun p hp q hq => ?_, ?_⟩
    · have heq : p.columns = q.columns := (hcolumns p hp).trans (hcolumns q hq).symm
      simpa [Property.columns] using heq
    · rw [← map_countSpaces_behindLast hinline]
      exact hcomment hbelow

/-- Nothing is reported on aligned declarations. -/
theorem Aligned.checkProperties_eq_nil (h : Aligned (first :: others) s.eol) :
    checkProperties (first :: others) s = [] := by
  have hcomment : ∀ p ∈ first :: others, p.comment.isBlank = false := fun p hp =>
    (h.complete p hp).2.2
  rw [checkProperties_cons_eq_nil_iff, overallIssues_eq_nil_iff hcomment]
  refine ⟨h.separated first rfl, ?_⟩
  rcases h.comments with hcolumns | hunder
  · refine ⟨fun p hp => ?_, ?_, fun p hp => ?_, h.nameGap, fun _ => ?_⟩
    · exact Property.checkAlone_eq_nil_iff.mpr
        ⟨h.complete p hp, fun hbelow => absurd hbelow (hcolumns.inline p hp)⟩
    · refine (List.pairwise_of_forall_mem_list fun p hp q hq _ _ => ?_).isChain
      obtain ⟨htype, hname, hcolumn⟩ := hcolumns.columns q hq p hp
      rw [Property.columns, htype, hname, hcolumn]
      rfl
    · exact iff_of_false (hcolumns.inline first List.mem_cons_self) (hcolumns.inline p hp)
    · rw [map_countSpaces_behindLast hcolumns.inline]
      exact hcolumns.commentGap
  · have hfirst := hunder.below first List.mem_cons_self
    refine ⟨fun p hp => ?_, ?_, fun p hp => ?_, h.nameGap, fun hinline => absurd hfirst hinline⟩
    · exact Property.checkAlone_eq_nil_iff.mpr
        ⟨h.complete p hp, fun _ => ⟨hunder.indented p hp, hunder.furtherLines p hp⟩⟩
    · exact (List.pairwise_of_forall_mem_list fun p hp q _ hinline _ =>
        absurd (hunder.below p hp) hinline).isChain
    · exact iff_of_true hfirst (hunder.below p hp)

end Silence

/-- No issue with property declarations is reported exactly if there are none, or they are complete,
set apart and aligned with one another. -/
theorem checkProperties_eq_nil_iff (ps : List Property) (s : Scope) :
    checkProperties ps s = [] ↔ ps = [] ∨ Aligned ps s.eol := by
  cases ps with
  | nil => exact iff_of_true rfl (.inl rfl)
  | cons first others =>
    constructor
    · exact fun h => .inr (.of_checkProperties_eq_nil h)
    · rintro (h | h)
      · cases h
      · exact h.checkProperties_eq_nil

-- Comments in a column, and comments under the types.
example :
    checkProperties
      [{ PropertyFields.ofText " int  $a   One." with
          tag := "property", above := "\n\n", line := 4 },
        { PropertyFields.ofText " bool $bcd Two." with tag := "property", line := 5 }]
      ⟨.file, 30, 40, "\n", []⟩ = [] ∧
    checkProperties
      [{ PropertyFields.ofText " int $a\n           Three." with
          tag := "property", above := "\n\n", line := 4 },
        { PropertyFields.ofText " bool $bcd\n           Four\n           and more." with
          tag := "property", line := 6 }]
      ⟨.file, 30, 40, "\n", []⟩ = [] := by
  decide

end DocCheck
