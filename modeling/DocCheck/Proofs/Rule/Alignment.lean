import DocCheck.Proofs.Text.Split
import DocCheck.Rule.Alignment

/-!
# One pass over the property declarations

The pass examines each declaration with the one before it, and keeps the narrowest gaps, the style
of the first declaration and the first one in another style. What it keeps is a summary of the
declarations it has seen, so what it reports at the end can be told from the whole list: from the
first declaration in another style, and from the minimum of each kind of gaps.
-/

namespace DocCheck

namespace Text

/-- What follows the last place of the separator: the shortest end of the text that starts with it,
without it. A text that does not contain the separator is taken as a whole. -/
def behindLast (t sep : Text) : Text :=
  ((t.tails.filter (sep.isPrefixOf ·)).getLast?.map (·.drop sep.length)).getD t

/-- What follows a lead, by testing for the lead and dropping it. -/
theorem after?_eq_ite (t lead : Text) :
    t.after? lead = if lead.isPrefixOf t then some (t.drop lead.length) else none := by
  split
  · next h =>
    obtain ⟨rest, rfl⟩ := List.isPrefixOf_iff_prefix.mp h
    rw [after?_eq_some_iff, List.drop_left]
  · next h =>
    rw [List.isPrefixOf_iff_prefix, ← isSome_after?_iff] at h
    simpa using h

/-- The last place of the separator starts the last of the ends that start with it. -/
theorem afterLast?_eq (t sep : Text) :
    t.afterLast? sep =
      (t.tails.filter (sep.isPrefixOf ·)).getLast?.map (·.drop sep.length) := by
  induction t with
  | nil => cases sep <;> rfl
  | cons c t ih =>
    rw [afterLast?, ih, after?_eq_ite, List.tails_cons, List.filter_cons]
    split
    · rw [List.getLast?_cons]
      cases (t.tails.filter (sep.isPrefixOf ·)).getLast? <;> rfl
    · rw [Option.or_none]

end Text

namespace Property

/-- A comment has lines of its own exactly if a line end stands in front of it. -/
theorem ownLine_eq_contains (p : Property) (eol : Text) :
    p.ownLine eol = p.beforeComment.contains eol := by
  rw [Bool.eq_iff_iff, Text.contains_iff_infix, ownLine, Option.isSome_iff_ne_none, ne_eq,
    Text.afterLast?_eq_none_iff, not_not]

/-- The indentation of a comment is what stands behind the last line end. -/
theorem indentation_eq_behindLast (p : Property) (eol : Text) :
    p.indentation eol = p.beforeComment.behindLast eol := by
  rw [indentation, Text.afterLast?_eq, Text.behindLast]

/-- The issues with a declaration that do not concern the one before it. -/
def checkAlone (p : Property) (s : Scope) : List Issue :=
  p.checkParts s ++ if p.ownLine s.eol then p.checkOwnLines s else []

end Property

/-- The findings about a single declaration. -/
def Finding.isSingle : Finding → Bool
  | missingPropertyName _ | missingPropertyType _ | missingPropertyComment .. => true
  | propertyCommentIndent | propertyCommentLines => true
  | _ => false

/-- The findings about columns. -/
def Finding.isColumn : Finding → Bool
  | propertyTypesNotAligned .. | propertiesNotAligned .. => true
  | _ => false

/-- Whether an issue is about columns and at the given position. -/
def Issue.isColumnAt (i : Issue) (position : Nat) : Bool :=
  i.finding.isColumn && i.position == position

/-- An issue about columns at a position. -/
theorem Issue.isColumnAt_iff {i : Issue} {position : Nat} :
    i.isColumnAt position ↔ i.finding.isColumn ∧ i.position = position := by
  simp [isColumnAt]

namespace Property

/-- An issue that does not concern the declaration before is about a single one. -/
theorem isSingle_of_mem_checkAlone {p : Property} {s : Scope} {i : Issue}
    (h : i ∈ p.checkAlone s) : i.finding.isSingle := by
  simp only [checkAlone, checkParts, checkOwnLines, List.mem_append, List.mem_filterMap,
    List.mem_ite_nil_right, List.mem_ite_nil_left, List.mem_singleton] at h
  rcases h with ((⟨-, rfl⟩ | ⟨-, rfl⟩) | ⟨-, rfl⟩) | ⟨-, ⟨-, rfl⟩ | ⟨entry, -, hentry⟩⟩
  · rfl
  · rfl
  · rfl
  · rfl
  · split at hentry
    · cases hentry
    · cases hentry
      rfl

/-- A declaration on its own has no issues about columns. -/
theorem not_isColumn_of_mem_checkAlone {p : Property} {s : Scope} {i : Issue}
    (h : i ∈ p.checkAlone s) : i.finding.isColumn = false := by
  have hsingle := isSingle_of_mem_checkAlone h
  cases hfinding : i.finding <;> simp_all [Finding.isSingle, Finding.isColumn]

/-- An issue with columns is reported at the declaration. -/
theorem isColumnAt_of_mem_checkColumns {p previous : Property} {s : Scope} :
    ∀ i ∈ p.checkColumns previous s, i.isColumnAt (s.first + p.line) := by
  have hat (finding : Finding) (h : finding.isColumn) :
      (s.at p.line finding).isColumnAt (s.first + p.line) := Issue.isColumnAt_iff.mpr ⟨h, rfl⟩
  intro i hi
  simp only [checkColumns, List.mem_append, List.mem_ite_nil_left, List.mem_singleton] at hi
  rcases hi with ⟨-, rfl⟩ | ⟨-, rfl⟩
  · exact hat _ rfl
  · exact hat _ rfl

end Property

/-- The first declaration for which the width is the least. -/
def firstNarrowest? (width : Property → Nat) (ps : List Property) : Option Property :=
  (ps.map width).min?.bind fun least => ps.find? (width · = least)

section Narrowest

variable {width : Property → Nat} {ps : List Property} {p : Property}

/-- The width of the first narrowest declaration is the minimum. -/
theorem min?_eq_map_firstNarrowest? (width : Property → Nat) (ps : List Property) :
    (ps.map width).min? = (firstNarrowest? width ps).map width := by
  cases hleast : (ps.map width).min? with
  | none => simp [firstNarrowest?, hleast]
  | some least =>
    obtain ⟨p, hp, hwidth⟩ := List.mem_map.mp (List.min?_mem hleast)
    cases hfind : ps.find? (width · = least) with
    | none => exact absurd hwidth (by simpa using List.find?_eq_none.mp hfind p hp)
    | some q =>
      have hq : width q = least := by simpa using List.find?_some hfind
      simp [firstNarrowest?, hleast, hfind, hq]

/-- The first narrowest declaration is narrower than those in front of it and not wider than those
behind it. -/
theorem firstNarrowest?_eq_some_iff :
    firstNarrowest? width ps = some p ↔ ∃ front behind, ps = front ++ p :: behind ∧
      (∀ q ∈ front, width p < width q) ∧ ∀ q ∈ behind, width p ≤ width q := by
  constructor
  · intro h
    have hmin := min?_eq_map_firstNarrowest? width ps
    rw [h, Option.map_some, List.min?_eq_some_iff] at hmin
    obtain ⟨least, -, hfind⟩ := Option.bind_eq_some_iff.mp h
    obtain ⟨hp, front, behind, rfl, hfront⟩ := List.find?_eq_some_iff_append.mp hfind
    have hp : width p = least := by simpa using hp
    have hle : ∀ q ∈ front ++ p :: behind, width p ≤ width q := fun q hq =>
      hmin.2 _ (List.mem_map_of_mem hq)
    refine ⟨front, behind, rfl, fun q hq => ?_, fun q hq => hle q (by simp [hq])⟩
    have hne : width q ≠ least := by simpa using hfront q hq
    have := hle q (by simp [hq])
    omega
  · rintro ⟨front, behind, rfl, hfront, hbehind⟩
    refine Option.bind_eq_some_iff.mpr ⟨width p, ?_, ?_⟩
    · refine List.min?_eq_some_iff.mpr ⟨by simp, List.forall_mem_map.mpr ?_⟩
      intro q hq
      rcases List.mem_append.mp hq with hq | hq
      · exact (hfront q hq).le
      · rcases List.mem_cons.mp hq with rfl | hq
        · exact Nat.le_refl _
        · exact hbehind q hq
    · refine List.find?_eq_some_iff_append.mpr ⟨by simp, front, behind, rfl, fun q hq => ?_⟩
      have := hfront q hq
      simp only [Bool.not_eq_true', decide_eq_false_iff_not]
      omega

/-- Where there are declarations, one of them is the narrowest. -/
theorem firstNarrowest?_eq_none_iff : firstNarrowest? width ps = none ↔ ps = [] := by
  rw [← Option.map_eq_none_iff (f := width), ← min?_eq_map_firstNarrowest?, List.min?_eq_none_iff,
    List.map_eq_nil_iff]

/-- One more declaration is the first narrowest one only if it is narrower than all others. -/
theorem firstNarrowest?_concat (width : Property → Nat) (ps : List Property) (p : Property) :
    firstNarrowest? width (ps ++ [p]) =
      match firstNarrowest? width ps with
      | none => some p
      | some q => if width p < width q then some p else some q := by
  cases hq : firstNarrowest? width ps with
  | none =>
    obtain rfl := firstNarrowest?_eq_none_iff.mp hq
    exact firstNarrowest?_eq_some_iff.mpr ⟨[], [], rfl, by simp, by simp⟩
  | some q =>
    obtain ⟨front, behind, rfl, hfront, hbehind⟩ := firstNarrowest?_eq_some_iff.mp hq
    dsimp only
    split
    · next hlt =>
      refine firstNarrowest?_eq_some_iff.mpr ⟨_, [], rfl, fun r hr => ?_, by simp⟩
      rcases List.mem_append.mp hr with hr | hr
      · exact hlt.trans (hfront r hr)
      · rcases List.mem_cons.mp hr with rfl | hr
        · exact hlt
        · exact hlt.trans_le (hbehind r hr)
    · next hge =>
      refine firstNarrowest?_eq_some_iff.mpr
        ⟨front, behind ++ [p], by simp, hfront, fun r hr => ?_⟩
      rcases List.mem_append.mp hr with hr | hr
      · exact hbehind r hr
      · rw [List.mem_singleton.mp hr]
        omega

end Narrowest

namespace Alignment

/-- The issues with the columns of a declaration. -/
def State.checkColumns (st : State) (p : Property) (s : Scope) : List Issue :=
  match st.previous with
  | some (previous, false) => if p.ownLine s.eol then [] else p.checkColumns previous s
  | _ => []

/-- A declaration is examined next to the one before it and then on its own. -/
theorem State.check_eq (st : State) (p : Property) (s : Scope) :
    st.check p s = st.checkColumns p s ++ p.checkAlone s := by
  rw [check, List.append_assoc]
  rfl

/-- Issues about columns are reported at the second of two neighbours. -/
theorem State.isColumnAt_of_mem_checkColumns {st : State} {p : Property} {s : Scope} :
    ∀ i ∈ st.checkColumns p s, i.isColumnAt (s.first + p.line) := by
  intro i hi
  unfold checkColumns at hi
  split at hi
  · split at hi
    · cases hi
    · exact Property.isColumnAt_of_mem_checkColumns i hi
  · cases hi

/-- The state after further declarations. -/
def State.after (st : State) (ps : List Property) (eol : Text) : State :=
  ps.foldl (fun st p => st.next p eol) st

/-- The issues with single declarations. -/
def State.checkEach (s : Scope) (st : State) : List Property → List Issue
  | [] => []
  | p :: ps => st.check p s ++ checkEach s (st.next p s.eol) ps

/-- The pass reports on each declaration, and at the end on all of them together. -/
theorem walk_eq (s : Scope) (st : State) (ps : List Property) :
    walk s st ps = st.checkEach s ps ++ (st.after ps s.eol).close s := by
  induction ps generalizing st with
  | nil => rfl
  | cons p ps ih => rw [walk, ih, State.checkEach, List.append_assoc]; rfl

/-- The narrowest gap, and the line of the first declaration that has it. -/
def narrowest (width : Property → Nat) (ps : List Property) : Narrowest :=
  (firstNarrowest? width ps).map fun p => (width p, p.line)

/-- One step: the narrowest gap so far is kept up to date. -/
theorem update_narrowest (width : Property → Nat) (ps : List Property) (p : Property) :
    (narrowest width ps).update (width p) p.line = narrowest width (ps ++ [p]) := by
  rw [narrowest, narrowest, firstNarrowest?_concat]
  cases firstNarrowest? width ps with
  | none => rfl
  | some q =>
    simp only [Option.map_some, Narrowest.update]
    split <;> rfl

/-- What the state keeps of the declarations it has seen. -/
structure State.Summarizes (st : State) (ps : List Property) (eol : Text) : Prop where
  nameGap : st.nameGap = narrowest (fun p => countSpaces p.beforeName) ps
  commentGap : st.commentGap =
    narrowest (fun p => countSpaces (p.indentation eol)) (ps.filter (!·.comment.isBlank))
  style : st.style = ps.head?.map (·.ownLine eol)
  mixedAt : st.mixedAt =
    (ps.find? fun p => ps.head?.any (·.ownLine eol ≠ p.ownLine eol)).map (·.line)
  previous : st.previous = ps.getLast?.map fun p => (p, p.ownLine eol)

/-- At the start of a walk no declarations have been seen. -/
theorem State.summarizes_nil (eol : Text) : State.Summarizes {} [] eol :=
  ⟨rfl, rfl, rfl, rfl, rfl⟩

/-- One step: the state after one more declaration summarizes that one too. -/
theorem State.Summarizes.next {st : State} {ps : List Property} {eol : Text}
    (h : st.Summarizes ps eol) (p : Property) : (st.next p eol).Summarizes (ps ++ [p]) eol where
  nameGap := by
    rw [State.next, h.nameGap]
    exact update_narrowest (fun p => countSpaces p.beforeName) ps p
  commentGap := by
    rw [State.next, h.commentGap, List.filter_append]
    by_cases hblank : p.comment.isBlank
    · rw [if_pos hblank, List.filter_cons_of_neg (by simp [hblank]), List.filter_nil,
        List.append_nil]
    · rw [if_neg hblank, List.filter_cons_of_pos (by simp [hblank]), List.filter_nil]
      exact update_narrowest (fun p => countSpaces (p.indentation eol)) _ p
  style := by
    rw [State.next, h.style]
    cases ps <;> rfl
  mixedAt := by
    rw [State.next, h.mixedAt, h.style]
    cases ps with
    | nil => simp
    | cons q ps =>
      simp only [List.head?_cons, List.head?_append_of_ne_nil _ (List.cons_ne_nil q ps),
        Option.map_some, Option.any_some, List.find?_append, List.find?_singleton, Option.map_or]
      by_cases hstyle : q.ownLine eol = p.ownLine eol <;> simp [hstyle]
  previous := by rw [State.next, List.getLast?_concat, Option.map_some]

/-- The whole pass: its last state summarizes all declarations. -/
theorem State.Summarizes.after {st : State} {seen : List Property} {eol : Text}
    (h : st.Summarizes seen eol) (ps : List Property) :
    (st.after ps eol).Summarizes (seen ++ ps) eol := by
  induction ps generalizing st seen with
  | nil => rwa [List.append_nil]
  | cons p ps ih =>
    have hnext := ih (h.next p)
    rwa [List.append_assoc, List.singleton_append] at hnext

end Alignment

/-- The findings about all declarations together. -/
def Finding.isOverall : Finding → Bool
  | mixedPropertyIndent | propertyTypeSpacing | propertyNameSpacing => true
  | _ => false

/-- The issue with the narrowest gap of a kind, at the first declaration that has it, unless it is
one space wide. -/
def gapIssue (s : Scope) (width : Property → Nat) (ps : List Property) (finding : Finding) :
    List Issue :=
  if (ps.map width).min? = some 1 then []
  else ((firstNarrowest? width ps).map fun p => s.at p.line finding).toList

/-- Whether a line end stands in the gap in front of the comment, so that the comment is on lines of
its own. -/
def Property.isBelow (p : Property) (eol : Text) : Bool := p.beforeComment.contains eol

/-- The first declaration whose comment is not in the style of the first one. -/
def firstInOtherStyle? (eol : Text) (ps : List Property) : Option Property :=
  ps.find? fun p => ps.head?.any (·.isBelow eol ≠ p.isBelow eol)

/-- The issues with all declarations together, from the whole list. -/
def overallIssues (ps : List Property) (s : Scope) : List Issue :=
  let commented := ps.filter (!·.comment.isBlank)
  ((firstInOtherStyle? s.eol ps).map fun p => s.at p.line .mixedPropertyIndent).toList ++
  (if commented = [] then []
    else gapIssue s (fun p => countSpaces p.beforeName) ps .propertyTypeSpacing) ++
  (if ps.getLast?.any (·.isBelow s.eol) then []
    else gapIssue s (fun p => countSpaces (p.beforeComment.behindLast s.eol)) commented
      .propertyNameSpacing)

namespace Alignment

/-- The issue with the narrowest gap, from what the pass keeps of it. -/
theorem gapIssue_eq (s : Scope) (width : Property → Nat) (ps : List Property) (finding : Finding) :
    gapIssue s width ps finding =
      match narrowest width ps with
      | some (least, line) => if least = 1 then [] else [s.at line finding]
      | none => [] := by
  rw [gapIssue, min?_eq_map_firstNarrowest?, narrowest]
  cases firstNarrowest? width ps <;> simp

/-- The last state reports on all declarations together. -/
theorem State.Summarizes.close_eq {st : State} {ps : List Property} {s : Scope}
    (h : st.Summarizes ps s.eol) : st.close s = overallIssues ps s := by
  have hgap (width : Property → Nat) (ps : List Property) :
      narrowest width ps = none ↔ ps = [] := by
    rw [narrowest, Option.map_eq_none_iff, firstNarrowest?_eq_none_iff]
  simp only [close, overallIssues, h.mixedAt, h.nameGap, h.commentGap, h.previous, gapIssue_eq,
    ← hgap (fun p => countSpaces (p.beforeComment.behindLast s.eol)), firstInOtherStyle?,
    Property.isBelow, Property.ownLine_eq_contains, Property.indentation_eq_behindLast,
    Option.map_map]
  refine congrArg₂ _ (congrArg₂ _ rfl ?_) ?_
  · cases narrowest (fun p => countSpaces (p.beforeComment.behindLast s.eol))
      (ps.filter (!·.comment.isBlank)) with
    | none => cases narrowest (fun p => countSpaces p.beforeName) ps <;> rfl
    | some gap =>
      rw [if_neg (Option.some_ne_none gap)]
      cases narrowest (fun p => countSpaces p.beforeName) ps <;> rfl
  · cases hlast : ps.getLast? with
    | none =>
      obtain rfl := List.getLast?_eq_none_iff.mp hlast
      rfl
    | some p =>
      cases hbelow : p.beforeComment.contains s.eol with
      | true => simp [hbelow]
      | false =>
        simp only [Option.map_some, Option.any_some, hbelow, Bool.false_eq_true, if_false]
        cases narrowest (fun p => countSpaces (p.beforeComment.behindLast s.eol))
          (ps.filter (!·.comment.isBlank)) <;> rfl

/-- The issues with a declaration are about its columns or about it alone. -/
theorem State.isColumn_or_isSingle_of_mem_check {st : State} {p : Property} {s : Scope} {i : Issue}
    (h : i ∈ st.check p s) : i.finding.isColumn ∨ i.finding.isSingle := by
  rw [check_eq, List.mem_append] at h
  rcases h with h | h
  · exact .inl (Issue.isColumnAt_iff.mp (isColumnAt_of_mem_checkColumns i h)).1
  · exact .inr (Property.isSingle_of_mem_checkAlone h)

/-- While walking only columns and single declarations are reported. -/
theorem State.isColumn_or_isSingle_of_mem_checkEach {st : State} {ps : List Property} {s : Scope}
    {i : Issue} (h : i ∈ st.checkEach s ps) : i.finding.isColumn ∨ i.finding.isSingle := by
  induction ps generalizing st with
  | nil => cases h
  | cons p ps ih =>
    rcases List.mem_append.mp h with h | h
    · exact isColumn_or_isSingle_of_mem_check h
    · exact ih h

/-- No issue with a single declaration is one with all of them. -/
theorem State.not_isOverall_of_mem_checkEach {st : State} {ps : List Property} {s : Scope}
    {i : Issue} (h : i ∈ st.checkEach s ps) : i.finding.isOverall = false := by
  have hkind := isColumn_or_isSingle_of_mem_checkEach h
  cases hfinding : i.finding <;>
    simp_all [Finding.isColumn, Finding.isSingle, Finding.isOverall]

end Alignment

/-- The pass reports on single declarations, and then on all of them together. -/
theorem checkProperties_eq (ps : List Property) (s : Scope) :
    checkProperties ps s =
      (if ps.head?.any (·.above.count s.eol ≠ 2) then
        (ps.head?.map fun p => s.at p.line .propertyNotSeparated).toList else []) ++
      Alignment.State.checkEach s {} ps ++ overallIssues ps s := by
  have hclose := ((Alignment.State.summarizes_nil s.eol).after ps).close_eq
  rw [List.nil_append] at hclose
  unfold checkProperties
  split
  · rfl
  · next p ps =>
    rw [Alignment.walk_eq, hclose, List.append_assoc]
    congr 1
    by_cases hcount : p.above.count s.eol = 2 <;> simp [hcount]

/-- The issues with all declarations together come last, and nowhere else. -/
theorem overallIssues_reported_last (ps : List Property) (s : Scope) :
    ∃ front, checkProperties ps s = front ++ overallIssues ps s ∧
      ∀ i ∈ front, i.finding.isOverall = false := by
  refine ⟨_, checkProperties_eq ps s, fun i hi => ?_⟩
  rcases List.mem_append.mp hi with hi | hi
  · rw [List.mem_ite_nil_right] at hi
    obtain ⟨p, -, rfl⟩ := Option.map_eq_some_iff.mp (Option.mem_toList.mp hi.2)
    rfl
  · exact Alignment.State.not_isOverall_of_mem_checkEach hi

-- The style changes on line 6, and lines 4 and 5 have the narrowest gaps.
example :
    overallIssues
      [{ PropertyFields.ofText " int  $a  First." with tag := "property", line := 4 },
        { PropertyFields.ofText " bool  $b  Second." with tag := "property", line := 5 },
        { PropertyFields.ofText " int   $c\n           Third." with tag := "property", line := 6 },
        { PropertyFields.ofText " int   $d   Fourth." with tag := "property", line := 8 }]
      ⟨.file, 10, 20, "\n", []⟩ =
    [⟨16, .mixedPropertyIndent⟩, ⟨14, .propertyTypeSpacing⟩, ⟨14, .propertyNameSpacing⟩] := by
  decide

/-- The findings about all declarations together are of their own kind. -/
theorem isOverall_of_mem_overallIssues {ps : List Property} {s : Scope} {i : Issue}
    (h : i ∈ overallIssues ps s) : i.finding.isOverall := by
  have hgap {width : Property → Nat} {qs : List Property} {finding : Finding}
      (h : i ∈ gapIssue s width qs finding) : i.finding = finding := by
    rw [gapIssue, List.mem_ite_nil_left] at h
    obtain ⟨p, -, rfl⟩ := Option.map_eq_some_iff.mp (Option.mem_toList.mp h.2)
    rfl
  simp only [overallIssues, List.mem_append, List.mem_ite_nil_left] at h
  rcases h with (h | ⟨-, h⟩) | ⟨-, h⟩
  · obtain ⟨p, -, rfl⟩ := Option.map_eq_some_iff.mp (Option.mem_toList.mp h)
    rfl
  · rw [hgap h]
    rfl
  · rw [hgap h]
    rfl

/-- A single declaration is reported wherever it stands in the walk. -/
theorem Alignment.State.mem_checkEach_iff {st : State} {ps : List Property} {s : Scope} {i : Issue}
    (h : i.finding.isSingle) : i ∈ st.checkEach s ps ↔ ∃ p ∈ ps, i ∈ p.checkAlone s := by
  have hcolumn : i.finding.isColumn = false := by
    cases hfinding : i.finding <;> simp_all [Finding.isSingle, Finding.isColumn]
  induction ps generalizing st with
  | nil => simp [checkEach]
  | cons p ps ih =>
    have hother : i ∉ st.checkColumns p s := by
      intro hmem
      have hkind := (Issue.isColumnAt_iff.mp (isColumnAt_of_mem_checkColumns i hmem)).1
      rw [hcolumn] at hkind
      cases hkind
    simp only [checkEach, check_eq, List.mem_append, ih, hother, false_or, List.mem_cons,
      exists_eq_or_imp]

/-- An issue about a single declaration is one that the declaration has alone. -/
theorem mem_checkProperties_iff {ps : List Property} {s : Scope} {i : Issue}
    (h : i.finding.isSingle) : i ∈ checkProperties ps s ↔ ∃ p ∈ ps, i ∈ p.checkAlone s := by
  have hoverall : i ∉ overallIssues ps s := by
    intro hmem
    have hkind := isOverall_of_mem_overallIssues hmem
    cases hfinding : i.finding <;> simp_all [Finding.isSingle, Finding.isOverall]
  have hfirst : i ∉ (if ps.head?.any (·.above.count s.eol ≠ 2) then
      (ps.head?.map fun p => s.at p.line .propertyNotSeparated).toList else []) := by
    intro hmem
    rw [List.mem_ite_nil_right] at hmem
    obtain ⟨p, -, rfl⟩ := Option.map_eq_some_iff.mp (Option.mem_toList.mp hmem.2)
    cases h
  rw [checkProperties_eq, List.mem_append, List.mem_append,
    Alignment.State.mem_checkEach_iff h]
  simp only [hfirst, hoverall, false_or, or_false]

end DocCheck
