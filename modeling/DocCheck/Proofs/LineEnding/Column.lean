import DocCheck.Proofs.LineEnding.Rule
import DocCheck.Proofs.Rule.Alignment

/-!
# Line ends and columns

Columns are measured in bytes, over gaps that may span lines, and a line end of two bytes moves
what stands behind it. Neighbouring declarations are reported alike under both line ends exactly
if these moves bring no columns together or apart and change no column that is reported.
-/

namespace DocCheck

open Text

/-- The finding about the column of a type. -/
def Finding.isTypeColumn : Finding → Bool
  | propertyTypesNotAligned .. => true
  | _ => false

/-- Two lists of which the first parts hold only wanted elements, and the second parts none, are
equal exactly if their parts are. -/
theorem append_eq_append_iff_of_forall {α : Type} (want : α → Bool) {xs ys xs' ys' : List α}
    (hxs : ∀ x ∈ xs, want x) (hxs' : ∀ x ∈ xs', want x) (hys : ∀ y ∈ ys, ¬ want y)
    (hys' : ∀ y ∈ ys', ¬ want y) : xs ++ ys = xs' ++ ys' ↔ xs = xs' ∧ ys = ys' := by
  constructor
  · intro h
    have hfilter := congrArg (List.filter want) h
    rw [List.filter_append, List.filter_append, List.filter_eq_self.mpr hxs,
      List.filter_eq_self.mpr hxs', List.filter_eq_nil_iff.mpr hys,
      List.filter_eq_nil_iff.mpr hys', List.append_nil, List.append_nil] at hfilter
    rw [hfilter, List.append_cancel_left_eq] at h
    exact ⟨hfilter, h⟩
  · rintro ⟨rfl, rfl⟩
    rfl

private theorem forall_mem_ite {c : Prop} [Decidable c] {i : Issue} {P : Issue → Prop}
    (h : P i) : ∀ j ∈ (if c then [] else [i]), P j := by
  split
  · simp
  · simpa using h

private theorem ite_eq_ite_iff {c d : Prop} [Decidable c] [Decidable d] {i j : Issue} :
    (if c then [] else [i]) = (if d then [] else [j]) ↔ (c ↔ d) ∧ (¬ d → i = j) := by
  by_cases hc : c <;> by_cases hd : d <;> simp [hc, hd]

namespace Property

/-- The line ends in front of the type. -/
def typeBreaks (p : Property) : Nat := List.count '\n' p.beforeType

/-- The line ends between the type and the name. -/
def nameBreaks (p : Property) : Nat := List.count '\n' p.beforeName

/-- The line ends in the gaps of a declaration and of the one before it neither change whether
their columns agree nor change columns that are reported. -/
def KeepsColumns (previous p : Property) : Prop :=
  (if p.typeColumn = previous.typeColumn then p.typeBreaks = previous.typeBreaks
    else p.typeBreaks = 0 ∧ previous.typeBreaks = 0) ∧
  (p.commentColumn = previous.commentColumn →
    (p.nameColumn = previous.nameColumn ↔
      p.nameColumn + p.nameBreaks = previous.nameColumn + previous.nameBreaks))

section Fields

variable (p : Property)

/-- A type moves by the line ends in front of it. -/
theorem typeColumn_crlf : p.crlfTexts.typeColumn = p.typeColumn + p.typeBreaks := by
  have htag : p.crlfTexts.tag = p.tag := rfl
  have hgap : p.crlfTexts.beforeType.byteLength = p.beforeType.byteLength + p.typeBreaks :=
    byteLength_crlf p.beforeType
  rw [typeColumn, htag, hgap, typeColumn]
  omega

/-- A name moves by the line ends between the type and the name. -/
theorem nameColumn_crlf : p.crlfTexts.nameColumn = p.nameColumn + p.nameBreaks := by
  have htype : p.crlfTexts.type = p.type := rfl
  have hgap : p.crlfTexts.beforeName.byteLength = p.beforeName.byteLength + p.nameBreaks :=
    byteLength_crlf p.beforeName
  rw [nameColumn, htype, hgap, nameColumn]
  omega

/-- A comment on the line of its declaration stays in its column. -/
theorem commentColumn_crlf (hown : p.ownLine "\n" = false) :
    p.crlfTexts.commentColumn = p.commentColumn := by
  have hname : p.crlfTexts.name = p.name := rfl
  have hnone : p.beforeComment.afterLast? "\n" = none := by
    rwa [ownLine, Option.isSome_eq_false_iff, Option.isNone_iff_eq_none] at hown
  have hgap : p.crlfTexts.beforeComment = p.beforeComment :=
    crlf_eq_self (not_mem_of_afterLast?_eq_none hnone)
  rw [commentColumn, hname, hgap, commentColumn]

variable {p} (hp : p.HasLineFeeds)

include hp

/-- A comment has lines of its own under both line ends or under none. -/
theorem ownLine_crlf : p.crlfTexts.ownLine "\r\n" = p.ownLine "\n" :=
  congrArg Option.isSome (afterLast?_lineEnd_crlf hp.beforeComment)

/-- The indentation of a comment is what stands behind the last line end in front of it. -/
theorem indentation_crlf : p.crlfTexts.indentation "\r\n" = p.indentation "\n" := by
  have hlast : p.crlfTexts.beforeComment.afterLast? "\r\n" = p.beforeComment.afterLast? "\n" :=
    afterLast?_lineEnd_crlf hp.beforeComment
  rw [indentation, hlast, indentation]
  cases hnone : p.beforeComment.afterLast? "\n" with
  | some rest => rfl
  | none => exact crlf_eq_self (not_mem_of_afterLast?_eq_none hnone)

/-- The name, or the word that stands for a missing one, has no line end to replace. -/
theorem crlf_nameOr {missing : Text} (hmissing : '\n' ∉ missing) :
    Text.crlf (if p.name.isEmpty then missing else p.name) =
      if p.name.isEmpty then missing else p.name := by
  split
  · exact crlf_eq_self hmissing
  · exact crlf_eq_self hp.name

/-- What a finding calls a declaration has no line end to replace. -/
theorem crlf_label : p.label.crlf = p.label := crlf_nameOr hp (by decide)

/-- What a finding calls the declaration before has no line end to replace. -/
theorem crlf_previousLabel : p.previousLabel.crlf = p.previousLabel := crlf_nameOr hp (by decide)

end Fields

/-- The columns of two neighbours are reported alike exactly if they are kept. -/
theorem checkColumns_crlf_iff {p previous : Property} (hp : p.HasLineFeeds)
    (hprevious : previous.HasLineFeeds) (hown : p.ownLine "\n" = false)
    (hownPrevious : previous.ownLine "\n" = false) (s : Scope) :
    p.crlfTexts.checkColumns previous.crlfTexts s.crlf =
        (p.checkColumns previous s).map Issue.crlf ↔ KeepsColumns previous p := by
  -- Findings about types come first and no others do, so the two parts are compared one by one.
  rw [checkColumns, checkColumns, List.map_append, Issue.map_crlf_ite, Issue.map_crlf_ite,
    append_eq_append_iff_of_forall (·.finding.isTypeColumn)
      (forall_mem_ite rfl) (forall_mem_ite rfl) (forall_mem_ite Bool.false_ne_true)
      (forall_mem_ite Bool.false_ne_true),
    ite_eq_ite_iff, ite_eq_ite_iff, KeepsColumns]
  refine and_congr ?_ ?_
  · have hissue : s.crlf.at p.crlfTexts.line (.propertyTypesNotAligned p.crlfTexts.type
          p.crlfTexts.typeColumn previous.crlfTexts.type previous.crlfTexts.typeColumn) =
        (s.at p.line (.propertyTypesNotAligned p.type p.typeColumn previous.type
          previous.typeColumn)).crlf ↔
        p.crlfTexts.typeColumn = p.typeColumn ∧
          previous.crlfTexts.typeColumn = previous.typeColumn := by
      rw [Scope.at_crlf, Finding.crlf, crlf_eq_self hp.type, crlf_eq_self hprevious.type]
      simp [Scope.at, crlfTexts, PropertyFields.crlfTexts]
    rw [hissue, typeColumn_crlf, typeColumn_crlf]
    split <;> omega
  · have hissue : s.crlf.at p.crlfTexts.line (.propertiesNotAligned previous.crlfTexts.previousLabel
          (p.crlfTexts.rank - 1) p.crlfTexts.label p.crlfTexts.rank) =
        (s.at p.line (.propertiesNotAligned previous.previousLabel (p.rank - 1) p.label
          p.rank)).crlf := by
      rw [Scope.at_crlf, Finding.crlf, crlf_label hp, crlf_previousLabel hprevious]
      rfl
    simp only [hissue, implies_true, and_true, alignsWith, nameColumn_crlf,
      commentColumn_crlf p hown, commentColumn_crlf previous hownPrevious, Bool.and_eq_true,
      decide_eq_true_eq]
    omega

/-- Missing parts of a declaration are reported alike. -/
theorem checkParts_crlf {p : Property} (hp : p.HasLineFeeds) (s : Scope) :
    p.crlfTexts.checkParts s.crlf = (p.checkParts s).map Issue.crlf := by
  have hname : p.crlfTexts.name = p.name := rfl
  have htype : p.crlfTexts.type = p.type := rfl
  have hcomment : p.crlfTexts.comment.isBlank = p.comment.isBlank := isBlank_crlf p.comment
  simp only [checkParts, hname, htype, hcomment, List.map_append]
  refine congrArg₂ _ (congrArg₂ _ ?_ ?_) ?_
  · split <;> rfl
  · split <;> rfl
  · split
    · rw [List.map_singleton, Scope.at_crlf, Finding.crlf, crlf_label hp]
      rfl
    · rfl

/-- The rules for a comment on lines of its own report alike. -/
theorem checkOwnLines_crlf {p : Property} (hp : p.HasLineFeeds) {s : Scope}
    (heol : s.eol = "\n") :
    p.crlfTexts.checkOwnLines s.crlf = (p.checkOwnLines s).map Issue.crlf := by
  have htag : p.crlfTexts.tag = p.tag := rfl
  have hcount : p.crlfTexts.beforeComment.count "\r\n" = p.beforeComment.count "\n" :=
    count_lineEnd_crlf hp.beforeComment
  have hcomment : Text.splitOn p.crlfTexts.comment "\r\n" = Text.splitOn p.comment "\n" :=
    splitOn_lineEnd_crlf hp.comment
  have heol' : s.crlf.eol = "\r\n" := rfl
  simp only [checkOwnLines, heol, heol', htag, hcount, hcomment, indentation_crlf hp,
    List.map_append, Issue.map_crlf_ite, List.map_filterMap]
  refine congrArg₂ _ rfl (List.filterMap_congr fun entry _ => ?_)
  split <;> rfl

/-- What is reported about a declaration without regard to its neighbours is reported alike. -/
theorem checkAlone_crlf {p : Property} (hp : p.HasLineFeeds) {s : Scope} (heol : s.eol = "\n") :
    p.crlfTexts.checkAlone s.crlf = (p.checkAlone s).map Issue.crlf := by
  have hown : p.crlfTexts.ownLine s.crlf.eol = p.ownLine s.eol := by
    rw [heol]
    exact ownLine_crlf hp
  rw [checkAlone, checkParts_crlf hp, hown, checkOwnLines_crlf hp heol, checkAlone, List.map_append]
  split <;> rfl

end Property

/-- Line ends do not decide what a finding is about. -/
theorem Finding.isColumn_crlf (f : Finding) : f.crlf.isColumn = f.isColumn := by cases f <;> rfl

/-- Line ends do not decide where an issue about columns is. -/
theorem Issue.isColumnAt_crlf (i : Issue) (position : Nat) :
    i.crlf.isColumnAt position = i.isColumnAt position :=
  congrArg (· && _) (Finding.isColumn_crlf i.finding)

namespace Alignment

/-- The state with the line ends of the last declaration written with carriage returns. -/
def State.crlf (st : State) : State :=
  { st with previous := st.previous.map fun (p, own) => (p.crlfTexts, own) }

/-- One step: the state behind a declaration differs only in that declaration. -/
theorem State.next_crlf (st : State) {p : Property} (hp : p.HasLineFeeds) :
    st.crlf.next p.crlfTexts "\r\n" = (st.next p "\n").crlf := by
  have hspaces : countSpaces p.crlfTexts.beforeName = countSpaces p.beforeName :=
    countP_crlf (by decide) (by decide) p.beforeName
  have hcomment : p.crlfTexts.comment.isBlank = p.comment.isBlank := isBlank_crlf p.comment
  simp only [next, hspaces, hcomment, Property.ownLine_crlf hp, Property.indentation_crlf hp]
  rfl

/-- What is reported at the end of a walk is reported alike. -/
theorem State.close_crlf (st : State) (s : Scope) :
    st.crlf.close s.crlf = (st.close s).map Issue.crlf := by
  obtain ⟨nameGap, commentGap, style, mixedAt, previous⟩ := st
  simp only [close, crlf, List.map_append]
  refine congrArg₂ _ (congrArg₂ _ ?_ ?_) ?_
  · cases mixedAt <;> rfl
  · split
    · rw [Issue.map_crlf_ite]
      rfl
    · rfl
  · rcases previous with _ | ⟨q, own⟩
    · rfl
    · cases own with
      | true => rfl
      | false =>
        cases commentGap with
        | none => rfl
        | some gap =>
          dsimp only [Option.map]
          rw [Issue.map_crlf_ite]
          rfl

/-- At the end of a walk no columns are reported. -/
theorem State.not_isColumn_of_mem_close {st : State} {s : Scope} {i : Issue}
    (h : i ∈ st.close s) : i.finding.isColumn = false := by
  simp only [close, List.mem_append, Option.mem_toList, Option.map_eq_some_iff] at h
  rcases h with (⟨line, -, rfl⟩ | h) | h
  · rfl
  · split at h
    · rw [List.mem_ite_nil_left, List.mem_singleton] at h
      rw [h.2]
      rfl
    · cases h
  · split at h
    · rw [List.mem_ite_nil_left, List.mem_singleton] at h
      rw [h.2]
      rfl
    · cases h

/-- The columns of two neighbours are kept, if both have their comments on their lines. -/
def Kept (previous p : Property) : Prop :=
  previous.ownLine "\n" = false → p.ownLine "\n" = false → Property.KeepsColumns previous p

/-- The last declaration of a source with line feeds. -/
def State.HasLineFeeds (st : State) : Prop :=
  ∀ previous own, st.previous = some (previous, own) →
    previous.HasLineFeeds ∧ own = previous.ownLine "\n"

/-- One step: the last declaration is the one just seen. -/
theorem State.HasLineFeeds.next (st : State) {p : Property} (hp : p.HasLineFeeds) :
    (st.next p "\n").HasLineFeeds := by
  rintro previous own h
  obtain ⟨rfl, rfl⟩ := Prod.mk.inj (Option.some.inj h)
  exact ⟨hp, rfl⟩

/-- One step: the columns of a declaration are reported alike exactly if they are kept. -/
theorem State.checkColumns_crlf_iff {st : State} (hst : st.HasLineFeeds) {p : Property}
    (hp : p.HasLineFeeds) {s : Scope} (heol : s.eol = "\n") :
    st.crlf.checkColumns p.crlfTexts s.crlf = (st.checkColumns p s).map Issue.crlf ↔
      ∀ q ∈ st.previous.map Prod.fst, Kept q p := by
  have hown : p.crlfTexts.ownLine s.crlf.eol = p.ownLine "\n" := Property.ownLine_crlf hp
  unfold checkColumns crlf
  cases hprevious : st.previous with
  | none => simp
  | some last =>
    obtain ⟨q, own⟩ := last
    obtain ⟨hq, rfl⟩ := hst q own hprevious
    simp only [Option.map_some, Option.mem_some_iff, forall_eq', heol, hown]
    -- A comment on lines of its own is in no column, so nothing is compared there.
    cases hownq : q.ownLine "\n" with
    | true => exact iff_of_true rfl fun hq => absurd (hownq.symm.trans hq) nofun
    | false =>
      cases hownp : p.ownLine "\n" with
      | true => exact iff_of_true rfl fun _ hp => absurd (hownp.symm.trans hp) nofun
      | false =>
        simp only [Kept, hownq, hownp, forall_const, Bool.false_eq_true, if_false]
        exact Property.checkColumns_crlf_iff hp hq hownp hownq s

/-- A whole walk: what is not about columns is reported alike. -/
theorem filter_walk_crlf {s : Scope} (heol : s.eol = "\n") {ps : List Property}
    (hps : ∀ p ∈ ps, p.HasLineFeeds) (st : State) :
    (walk s.crlf st.crlf (ps.map Property.crlfTexts)).filter (!·.finding.isColumn) =
      ((walk s st ps).map Issue.crlf).filter (!·.finding.isColumn) := by
  induction ps generalizing st with
  | nil => rw [List.map_nil, walk, walk, State.close_crlf]
  | cons p ps ih =>
    have hp := hps p List.mem_cons_self
    have hcolumns {st : State} {p : Property} {s : Scope} :
        (st.checkColumns p s).filter (!·.finding.isColumn) = [] :=
      List.filter_eq_nil_iff.mpr fun i hi => by
        simp [(Issue.isColumnAt_iff.mp (State.isColumnAt_of_mem_checkColumns i hi)).1]
    have hmap (is : List Issue) : (is.map Issue.crlf).filter (!·.finding.isColumn) =
        (is.filter (!·.finding.isColumn)).map Issue.crlf := by
      rw [List.filter_map]
      exact congrArg _ (List.filter_congr fun i _ =>
        congrArg (!·) (Finding.isColumn_crlf i.finding))
    rw [List.map_cons, walk, walk, State.check_eq, State.check_eq, List.append_assoc,
      List.append_assoc, List.map_append, List.map_append, List.filter_append, List.filter_append,
      List.filter_append, List.filter_append, hcolumns, hmap (st.checkColumns p s), hcolumns,
      Property.checkAlone_crlf hp heol]
    change _ ++ (_ ++ (walk s.crlf (st.crlf.next p.crlfTexts "\r\n") _).filter _) = _
    rw [State.next_crlf st hp, ih (fun q hq => hps q (List.mem_cons_of_mem _ hq)), heol]
    rfl

/-- An issue about columns in a walk is reported at one of the declarations. -/
theorem exists_mem_of_isColumn_walk {s : Scope} {st : State} {ps : List Property} {i : Issue}
    (h : i ∈ walk s st ps) (hcolumn : i.finding.isColumn) :
    ∃ p ∈ ps, i.position = s.first + p.line := by
  induction ps generalizing st with
  | nil =>
    rw [State.not_isColumn_of_mem_close h] at hcolumn
    cases hcolumn
  | cons p ps ih =>
    rw [walk, State.check_eq, List.append_assoc] at h
    rcases List.mem_append.mp h with h | h
    · have hat := State.isColumnAt_of_mem_checkColumns i h
      exact ⟨p, List.mem_cons_self, (Issue.isColumnAt_iff.mp hat).2⟩
    · rcases List.mem_append.mp h with h | h
      · rw [Property.not_isColumn_of_mem_checkAlone h] at hcolumn
        cases hcolumn
      · obtain ⟨q, hq, hposition⟩ := ih h
        exact ⟨q, List.mem_cons_of_mem _ hq, hposition⟩

/-- The issues behind those with the columns of a declaration are not of their kind. -/
theorem not_isColumnAt_of_mem {s : Scope} {st : State} {p : Property} {ps : List Property}
    (hps : ∀ q ∈ ps, p.line < q.line) :
    ∀ i ∈ p.checkAlone s ++ walk s st ps, ¬ i.isColumnAt (s.first + p.line) := by
  intro i hi hat
  obtain ⟨hcolumn, hposition⟩ := Issue.isColumnAt_iff.mp hat
  rcases List.mem_append.mp hi with hi | hi
  · rw [Property.not_isColumn_of_mem_checkAlone hi] at hcolumn
    cases hcolumn
  · obtain ⟨q, hq, hline⟩ := exists_mem_of_isColumn_walk hi hcolumn
    have := hps q hq
    omega

/-- A whole walk reports alike exactly if the columns of all neighbours are kept. -/
theorem walk_crlf_iff {s : Scope} (heol : s.eol = "\n") {ps : List Property}
    (hps : ∀ p ∈ ps, p.HasLineFeeds) (hlines : ps.Pairwise (·.line < ·.line)) {st : State}
    (hst : st.HasLineFeeds) :
    walk s.crlf st.crlf (ps.map Property.crlfTexts) = (walk s st ps).map Issue.crlf ↔
      ((st.previous.map Prod.fst).toList ++ ps).IsChain Kept := by
  induction ps generalizing st with
  | nil =>
    rw [List.map_nil, walk, walk, State.close_crlf]
    cases st.previous <;> simp
  | cons p ps ih =>
    have hp := hps p List.mem_cons_self
    obtain ⟨hbehind, hlines⟩ := List.pairwise_cons.mp hlines
    have hnext := ih (fun q hq => hps q (List.mem_cons_of_mem _ hq)) hlines
      (State.HasLineFeeds.next st hp)
    -- The issues about the columns of this declaration come first, and none behind them is about
    -- columns at its line: the walks agree exactly if these issues do and the others do.
    have hcolumns : ∀ i ∈ (st.checkColumns p s).map Issue.crlf, i.isColumnAt (s.first + p.line) :=
      List.forall_mem_map.mpr fun i hi =>
        (Issue.isColumnAt_crlf i _).trans (State.isColumnAt_of_mem_checkColumns i hi)
    have hcolumns' : ∀ i ∈ st.crlf.checkColumns p.crlfTexts s.crlf,
        i.isColumnAt (s.first + p.line) :=
      State.isColumnAt_of_mem_checkColumns
    have hothers : ∀ i ∈ (p.checkAlone s ++ walk s (st.next p s.eol) ps).map Issue.crlf,
        ¬ i.isColumnAt (s.first + p.line) :=
      List.forall_mem_map.mpr fun i hi hat =>
        not_isColumnAt_of_mem hbehind i hi ((Issue.isColumnAt_crlf i _).symm.trans hat)
    have hothers' : ∀ i ∈ p.crlfTexts.checkAlone s.crlf ++
        walk s.crlf (st.crlf.next p.crlfTexts s.crlf.eol) (ps.map Property.crlfTexts),
        ¬ i.isColumnAt (s.first + p.line) :=
      not_isColumnAt_of_mem (List.forall_mem_map.mpr hbehind)
    rw [List.map_cons, walk, walk, State.check_eq, State.check_eq, List.append_assoc,
      List.append_assoc, List.map_append,
      append_eq_append_iff_of_forall _ hcolumns' hcolumns hothers' hothers,
      List.map_append, Property.checkAlone_crlf hp heol, List.append_cancel_left_eq,
      State.checkColumns_crlf_iff hst hp heol, heol]
    change (_ ∧ walk s.crlf (st.crlf.next p.crlfTexts "\r\n") _ = _) ↔ _
    rw [State.next_crlf st hp, hnext]
    cases st.previous with
    | none => simp [State.next]
    | some last => simp [State.next, List.isChain_cons_cons]

end Alignment

end DocCheck
