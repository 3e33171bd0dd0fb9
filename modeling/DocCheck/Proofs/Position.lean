import DocCheck.Proofs.Comment.Property
import DocCheck.Proofs.Rule.BuiltIn
import DocCheck.Proofs.Stream.Block

/-!
# Positions of issues

The line numbers of a comment are lines of its block, and those of a tag are lines with the header
of that tag. Every rule reports at such a line, so every issue of a block lies inside the block,
and an issue that names a tag lies on a token with that tag.
-/

namespace DocCheck

/-- A header of the named tag stands on the line. -/
def HeaderAt (lines : List Text) (i : Nat) (tag : Text) : Prop :=
  ∃ l rest, lines[i]? = some l ∧ header? l = some (tag, rest)

/-- A header is on one of the lines. -/
theorem HeaderAt.lt {lines : List Text} {i : Nat} {tag : Text} (h : HeaderAt lines i tag) :
    i < lines.length := by
  obtain ⟨l, rest, hl, -⟩ := h
  exact (List.getElem?_eq_some_iff.mp hl).1

/-- The number of a tag is the number of its header line. -/
theorem RawTag.headerAt {lines : List Text} {t : RawTag} (ht : t ∈ rawTags lines) :
    HeaderAt lines t.line t.name := by
  obtain ⟨front, l, behind, rfl, hline, hheader, -⟩ := exists_line_of_mem_rawTags ht
  refine ⟨l, t.rest, ?_, hheader⟩
  rw [hline, List.getElem?_append_right (Nat.le_refl _), Nat.sub_self]
  rfl

/-- The line numbers of a comment are lines of its block, those of tags are header lines. -/
structure Comment.Inside (c : Comment) (lines : List Text) (eol : Text) : Prop where
  tags : ∀ o ∈ c.tags, HeaderAt lines o.line o.name
  unknown : ∀ u ∈ c.unknown, HeaderAt lines u.line u.name
  firstTag : c.firstTag.getD 0 < lines.length
  shortStart : c.short.isEmpty = false → 0 < c.blanksBefore → 1 < lines.length
  shortEnd : c.hasLong → c.shortEnd + 1 < lines.length
  properties : ∀ p ∈ c.properties,
    p.line + p.beforeComment.count eol + p.comment.count eol < lines.length

/-- The lines of the tags are lines of the comment. -/
theorem tagStart_le (lines : List Text) :
    tagStart lines + (tagLines lines).length ≤ lines.length := by
  obtain ⟨front, back, hlines, hfront, -, -⟩ := exists_contentLines lines
  have hlength := congrArg List.length hlines
  rw [← bodyLines_append_tagLines] at hlength
  simp only [List.length_append, hfront] at hlength
  rw [tagStart]
  omega

section Description

variable (body : List Text) (start : Nat) (eol : Text)

private theorem length_takeWhile_add {α : Type} (p : α → Bool) (xs : List α) :
    (xs.takeWhile p).length + (xs.dropWhile p).length = xs.length := by
  rw [← List.length_append, List.takeWhile_append_dropWhile]

/-- The blank lines in front of a short text are not all lines of the body. -/
theorem blanksBefore_lt (h : (readDescription body start eol).short.isEmpty = false) :
    (readDescription body start eol).blanksBefore < body.length := by
  have hsplit := length_takeWhile_add Text.isBlank body
  unfold readDescription at h ⊢
  dsimp only at h ⊢
  split at h
  · cases h
  · next htext =>
    have hpos := List.length_pos_of_ne_nil fun hnil => htext (List.isEmpty_iff.mpr hnil)
    rw [if_neg htext]
    dsimp only
    omega

/-- A long text stands behind the short text in the body. -/
theorem shortEnd_lt (h : (readDescription body start eol).hasLong) :
    (readDescription body start eol).shortEnd + 1 < start + body.length := by
  have hbody := length_takeWhile_add Text.isBlank body
  have hfirst := List.head?_dropWhile_not Text.isBlank body
  unfold readDescription at h ⊢
  dsimp only at h ⊢
  generalize body.dropWhile Text.isBlank = text at *
  have htext := length_takeWhile_add (!Text.isBlank ·) text
  generalize text.dropWhile (!Text.isBlank ·) = afterShort at *
  have hgap := length_takeWhile_add Text.isBlank afterShort
  cases text with
  | nil => cases h
  | cons l ls =>
    -- The first line that is not blank belongs to the short text, so its last line exists.
    have hshort : 0 < ((l :: ls).takeWhile (!Text.isBlank ·)).length := by
      have hl : (!l.isBlank) = true := by simpa using hfirst
      simp [hl]
    have hlong : 0 < (afterShort.dropWhile Text.isBlank).length := by
      apply List.length_pos_of_ne_nil
      intro hnil
      simp [Comment.hasLong, hnil] at h
    simp only [List.isEmpty_cons, Bool.false_eq_true, if_false]
    omega

end Description

/-- What is read from a comment is on its lines. -/
theorem Comment.inside_of_parse {raw eol : Text} {v : Vocabulary} {c : Comment}
    (heol : Text.HeadUnique eol) (hparse : Comment.parse raw v eol = .ok c) :
    c.Inside (Margin.strip raw eol) eol := by
  have hproperties := fun p => Property.line_add_count_lt heol hparse (p := p)
  have hpos : 0 < (Margin.strip raw eol).length := by
    rw [Margin.length_strip]
    exact List.length_pos_of_ne_nil (Text.splitOn_ne_nil heol.ne_nil raw)
  obtain ⟨tags, htags, rfl⟩ := Comment.exists_tags_of_parse hparse
  generalize Margin.strip raw eol = lines at *
  have hstart := tagStart_le lines
  have hbody : contentStart lines + (bodyLines lines).length = tagStart lines := rfl
  refine ⟨?_, ?_, ?_, ?_, ?_, hproperties⟩
  · intro o ho
    obtain ⟨t, ht, g, rank, element, -, -, rfl⟩ := exists_rawTag_of_mem htags ho
    exact RawTag.headerAt ht
  · intro u hu
    obtain ⟨t, ht, rfl⟩ := List.mem_map.mp hu
    exact RawTag.headerAt (List.mem_of_mem_filter ht)
  · simp only [assemble]
    split
    · exact hpos
    · next htagLines =>
      have := List.length_pos_of_ne_nil (by simpa using htagLines)
      simp only [Option.getD_some]
      omega
  · intro hshort hblanks
    have := blanksBefore_lt (bodyLines lines) (contentStart lines) eol hshort
    change 0 < (readDescription (bodyLines lines) (contentStart lines) eol).blanksBefore at hblanks
    omega
  · intro hlong
    have := shortEnd_lt (bodyLines lines) (contentStart lines) eol hlong
    change (readDescription (bodyLines lines) (contentStart lines) eol).shortEnd + 1 < lines.length
    omega

/-- The tag whose header an issue is reported at. -/
def Finding.headerTag? : Finding → Option Text
  | duplicateTag _ tag => some tag
  | ungroupedTags tag => some tag
  | missingContent _ tag => some tag
  | unknownTag _ tag => some tag
  | invalidPackageName tag _ _ => some tag
  | emptyPackageName tag => some tag
  | _ => none

/-- Every issue is reported at a line of the block, and at the header of the tag it names. The block
has the given lines, and its first token is at `first`. -/
def AllPlaced (first : Nat) (lines : List Text) (issues : List Issue) : Prop :=
  ∀ i ∈ issues, ∃ line, i.position = first + line ∧ line < lines.length ∧
    ∀ tag, i.finding.headerTag? = some tag → HeaderAt lines line tag

namespace AllPlaced

variable {s : Scope} {first line : Nat} {lines : List Text} {xs ys : List Issue} {f : Finding}

/-- No issues are all placed. -/
theorem nil : AllPlaced first lines [] := fun _ h => by cases h

/-- Two lists of placed issues. -/
theorem append (hx : AllPlaced first lines xs) (hy : AllPlaced first lines ys) :
    AllPlaced first lines (xs ++ ys) :=
  List.forall_mem_append.mpr ⟨hx, hy⟩

/-- Issues that are placed whichever way a test goes. -/
theorem ite {p : Prop} [Decidable p] (hx : p → AllPlaced first lines xs)
    (hy : ¬ p → AllPlaced first lines ys) : AllPlaced first lines (if p then xs else ys) := by
  split
  · next hp => exact hx hp
  · next hp => exact hy hp

/-- Issues that are placed for each of several parts. -/
theorem flatMap {α : Type} {as : List α} {g : α → List Issue}
    (h : ∀ a ∈ as, AllPlaced first lines (g a)) : AllPlaced first lines (as.flatMap g) := by
  intro i hi
  obtain ⟨a, ha, hia⟩ := List.mem_flatMap.mp hi
  exact h a ha i hia

/-- An issue that names no tag is placed on any line of the block. -/
theorem at_line (hline : line < lines.length) (hf : f.headerTag? = none) :
    AllPlaced s.first lines [s.at line f] := by
  intro i hi
  rw [List.mem_singleton.mp hi]
  exact ⟨line, rfl, hline, fun tag htag => by rw [Scope.at, hf] at htag; cases htag⟩

/-- An issue is placed on the header of the tag that it names, if it names any. -/
theorem at_header {tag : Text} (h : HeaderAt lines line tag)
    (hf : f.headerTag? = none ∨ f.headerTag? = some tag) :
    AllPlaced s.first lines [s.at line f] := by
  rcases hf with hnone | hsome
  · exact at_line h.lt hnone
  · intro i hi
    rw [List.mem_singleton.mp hi]
    refine ⟨line, rfl, h.lt, fun t ht => ?_⟩
    rw [Scope.at, hsome] at ht
    cases ht
    exact h

end AllPlaced

section Rules

variable {c : Comment} {s : Scope} {lines : List Text} {o : Occurrence}

/-- The rules on blank lines report inside the comment. -/
theorem Comment.Inside.checkSpacing (h : c.Inside lines s.eol) :
    AllPlaced s.first lines (c.checkSpacing s) := by
  refine .append (.append (.ite (fun hc => ?_) fun _ => .nil) (.ite (fun hc => ?_) fun _ => .nil))
    (.ite (fun _ => .at_line h.firstTag rfl) fun _ => .nil)
  · simp only [Bool.and_eq_true, Bool.not_eq_true', decide_eq_true_eq] at hc
    exact .at_line (h.shortStart hc.1 hc.2) rfl
  · simp only [Bool.and_eq_true, decide_eq_true_eq] at hc
    exact .at_line (h.shortEnd hc.1) rfl

/-- The rule for package names reports at the tag. -/
theorem Occurrence.allPlaced_checkPackageName (h : HeaderAt lines o.line o.name) :
    AllPlaced s.first lines (o.checkPackageName s) :=
  .ite (fun _ => .at_header h (.inr rfl)) fun _ =>
    .ite (fun _ => .nil) fun _ => .at_header h (.inr rfl)

/-- The rule for authors reports at the tag. -/
theorem Occurrence.allPlaced_checkAuthor (h : HeaderAt lines o.line o.name) :
    AllPlaced s.first lines (o.checkAuthor s) :=
  .ite (fun _ => .at_header h (.inr rfl)) fun _ =>
    .ite (fun _ => .nil) fun _ => .at_header h (.inl rfl)

/-- The rule for copyrights reports at the tag. -/
theorem Occurrence.allPlaced_checkCopyright (h : HeaderAt lines o.line o.name) :
    AllPlaced s.first lines (o.checkCopyright s) := by
  unfold checkCopyright
  split
  · exact .at_header h (.inl rfl)
  · exact .nil
  · exact .append (.ite (fun _ => .nil) fun _ => .at_header h (.inl rfl))
      (.ite (fun _ => .at_header h (.inl rfl)) fun _ => .nil)

/-- The rule for licenses reports at the tag. -/
theorem Occurrence.allPlaced_checkLicense (h : HeaderAt lines o.line o.name) :
    AllPlaced s.first lines (o.checkLicense s) := by
  unfold checkLicense
  split
  · exact .ite (fun _ => .nil) fun _ => .at_header h (.inl rfl)
  · exact .at_header h (.inl rfl)

/-- The rule for versions reports at the tag. -/
theorem Occurrence.allPlaced_checkVersion (h : HeaderAt lines o.line o.name) :
    AllPlaced s.first lines (o.checkVersion s) :=
  .ite (fun _ => .at_header h (.inr rfl)) fun _ =>
    .ite (fun _ => .nil) fun _ => .at_header h (.inl rfl)

/-- The rule that asks for some content reports at the tag. -/
theorem Occurrence.allPlaced_checkNotEmpty (h : HeaderAt lines o.line o.name) :
    AllPlaced s.first lines (o.checkNotEmpty s) :=
  .ite (fun _ => .at_header h (.inr rfl)) fun _ => .nil

/-- The usual rules for the content of a tag report at its header. -/
theorem ContentRule.IsBuiltIn.allPlaced_check {rule : ContentRule} (hrule : rule.IsBuiltIn)
    {os : List Occurrence} (h : ∀ o ∈ os, HeaderAt lines o.line o.name) :
    AllPlaced s.first lines (rule.check s os) := by
  have hlast : ∀ o ∈ os.getLast?.toList, HeaderAt lines o.line o.name := fun o ho =>
    h o (List.mem_of_mem_getLast? (Option.mem_toList.mp ho))
  cases hrule with
  | package => exact .flatMap fun o ho => o.allPlaced_checkPackageName (hlast o ho)
  | subpackage => exact .flatMap fun o ho => o.allPlaced_checkPackageName (hlast o ho)
  | authors => exact .flatMap fun o ho => o.allPlaced_checkAuthor (h o ho)
  | copyrights => exact .flatMap fun o ho => o.allPlaced_checkCopyright (h o ho)
  | license => exact .flatMap fun o ho => o.allPlaced_checkLicense (hlast o ho)
  | version => exact .flatMap fun o ho => o.allPlaced_checkVersion (hlast o ho)
  | notEmpty => exact .flatMap fun o ho => o.allPlaced_checkNotEmpty (h o ho)

/-- An occurrence out of its place is one of the occurrences. -/
theorem Comment.mem_of_firstStray? {expected : Nat} {pairs : List (Occurrence × Nat)}
    (h : Comment.firstStray? expected pairs = some o) : ∃ index, (o, index) ∈ pairs := by
  induction pairs generalizing expected with
  | nil => cases h
  | cons pair rest ih =>
    obtain ⟨o', index⟩ := pair
    simp only [firstStray?] at h
    split at h
    · obtain ⟨index', hmem⟩ := ih h
      exact ⟨index', List.mem_cons_of_mem _ hmem⟩
    · cases h
      exact ⟨index, List.mem_cons_self⟩

/-- Repetition is reported at an occurrence of the repeated tag. -/
theorem Comment.Inside.checkRepetition (h : c.Inside lines s.eol) (g : Grammar) :
    AllPlaced s.first lines (c.checkRepetition s g) := by
  have hname : ∀ o ∈ c.occurrences g.name, HeaderAt lines o.line g.name := by
    intro o ho
    obtain ⟨hmem, heq⟩ := List.mem_filter.mp ho
    rw [← of_decide_eq_true heq]
    exact h.tags o hmem
  refine .ite (fun _ => .nil) fun _ => .ite (fun _ => ?_) fun _ => ?_
  · dsimp only
    cases hstray : firstStray? ((c.indexes g.name).headD 0)
        ((c.occurrences g.name).zip (c.indexes g.name)) with
    | none => exact .nil
    | some o =>
      obtain ⟨index, hmem⟩ := mem_of_firstStray? hstray
      exact .at_header (hname o (List.of_mem_zip hmem).1) (.inr rfl)
  · cases hlast : (c.occurrences g.name).getLast? with
    | none => exact .nil
    | some o => exact .at_header (hname o (List.mem_of_mem_getLast? hlast)) (.inr rfl)

/-- The rules for tags report at the headers of the tags, and a missing tag at the last line. -/
theorem Comment.Inside.checkTags (h : c.Inside lines s.eol)
    (hlast : s.first + lines.length = s.last + 1) {v : Vocabulary} (hrules : v.UsesBuiltInRules) :
    AllPlaced s.first lines (c.checkTags v s) := by
  refine .flatMap fun g hg => .ite (fun _ => .ite (fun _ => ?_) fun _ => .nil) fun _ =>
    .append (h.checkRepetition g)
      ((hrules g (List.mem_of_mem_filter hg)).allPlaced_check fun o ho => ?_)
  · have hpos : 0 < lines.length := Nat.lt_of_le_of_lt (Nat.zero_le _) h.firstTag
    intro i hi
    rw [List.mem_singleton.mp hi]
    exact ⟨lines.length - 1, by dsimp only; omega, by omega, fun tag htag => by cases htag⟩
  · exact h.tags o (List.mem_of_mem_filter ho)

/-- Tags outside the vocabulary are reported where they stand. -/
theorem Comment.Inside.checkUnknown (h : c.Inside lines s.eol) :
    AllPlaced s.first lines (c.checkUnknown s) := by
  intro i hi
  obtain ⟨u, hu, rfl⟩ := List.mem_map.mp hi
  exact AllPlaced.at_header (h.unknown u hu) (.inr rfl) _ List.mem_cons_self

end Rules

section Alignment

variable {s : Scope} {lines : List Text} {p : Property}

/-- Columns are reported at the declaration. -/
theorem Property.allPlaced_checkColumns (h : p.line < lines.length) (previous : Property) :
    AllPlaced s.first lines (p.checkColumns previous s) :=
  .append (.ite (fun _ => .nil) fun _ => .at_line h rfl)
    (.ite (fun _ => .nil) fun _ => .at_line h rfl)

/-- Missing parts are reported at the declaration. -/
theorem Property.allPlaced_checkParts (h : p.line < lines.length) :
    AllPlaced s.first lines (p.checkParts s) :=
  .append (.append (.ite (fun _ => .at_line h rfl) fun _ => .nil)
    (.ite (fun _ => .at_line h rfl) fun _ => .nil)) (.ite (fun _ => .at_line h rfl) fun _ => .nil)

/-- A line of a comment on its own lines is counted from the declaration, so it is at most as far
below it as there are line ends in the comment and the gap in front of it. -/
theorem Property.allPlaced_checkOwnLines (heol : s.eol ≠ [])
    (h : p.line + p.beforeComment.count s.eol + p.comment.count s.eol < lines.length) :
    AllPlaced s.first lines (p.checkOwnLines s) := by
  refine .append (.ite (fun _ => .nil) fun _ => .at_line (by omega) rfl) fun i hi => ?_
  obtain ⟨⟨l, k⟩, hmem, hl⟩ := List.mem_filterMap.mp hi
  have hk : k < (p.comment.splitOn s.eol).length := by
    have := List.mem_zipIdx (List.mem_of_mem_drop hmem)
    omega
  rw [Text.length_splitOn heol] at hk
  dsimp only at hl
  split at hl
  · cases hl
  · cases hl
    exact AllPlaced.at_line (by omega) rfl _ List.mem_cons_self

namespace Alignment

/-- The lines that the pass over the declarations keeps are lines of the block. -/
structure State.Inside (st : State) (n : Nat) : Prop where
  nameGap : ∀ width line, st.nameGap = some (width, line) → line < n
  commentGap : ∀ width line, st.commentGap = some (width, line) → line < n
  mixedAt : ∀ line, st.mixedAt = some line → line < n

/-- The narrowest gap is on the line of a declaration. -/
theorem Narrowest.update_line_lt {gap : Narrowest} {n width line : Nat} (hline : line < n)
    (h : ∀ w l, gap = some (w, l) → l < n) :
    ∀ w l, gap.update width line = some (w, l) → l < n := by
  intro w l hupdate
  unfold Narrowest.update at hupdate
  split at hupdate
  · cases hupdate
    exact hline
  · next least place =>
    split at hupdate
    · cases hupdate
      exact hline
    · cases hupdate
      exact h _ _ rfl

/-- One step: the lines that the state holds stay inside the comment. -/
theorem State.Inside.next {st : State} {n : Nat} (h : st.Inside n) (hp : p.line < n) (eol : Text) :
    (st.next p eol).Inside n := by
  refine ⟨Narrowest.update_line_lt hp h.nameGap, ?_, fun line hline => ?_⟩
  · simp only [State.next]
    split
    · exact h.commentGap
    · exact Narrowest.update_line_lt hp h.commentGap
  · simp only [State.next, Option.or_eq_some_iff] at hline
    rcases hline with hline | ⟨-, hline⟩
    · exact h.mixedAt line hline
    · split at hline
      · cases hline
        exact hp
      · cases hline

/-- At the end of a walk issues are reported on the lines that the state holds. -/
theorem State.Inside.close {st : State} (h : st.Inside lines.length) :
    AllPlaced s.first lines (st.close s) := by
  refine .append (.append ?_ ?_) ?_
  · cases hmixed : st.mixedAt with
    | none => exact .nil
    | some line => exact .at_line (h.mixedAt line hmixed) rfl
  · split
    · next width line _ hname _ =>
      exact .ite (fun _ => .nil) fun _ => .at_line (h.nameGap width line hname) rfl
    · exact .nil
  · split
    · next width line _ hcomment =>
      exact .ite (fun _ => .nil) fun _ => .at_line (h.commentGap width line hcomment) rfl
    · exact .nil

/-- The pass reports only at lines of the block. -/
theorem allPlaced_walk (heol : s.eol ≠ []) {st : State} (hst : st.Inside lines.length)
    {ps : List Property} (hps : ∀ p ∈ ps,
      p.line + p.beforeComment.count s.eol + p.comment.count s.eol < lines.length) :
    AllPlaced s.first lines (walk s st ps) := by
  induction ps generalizing st with
  | nil => exact hst.close
  | cons p ps ih =>
    have hp := hps p List.mem_cons_self
    have hline : p.line < lines.length := by omega
    refine .append (.append (.append ?_ (p.allPlaced_checkParts hline)) ?_)
      (ih (hst.next hline s.eol) fun q hq => hps q (List.mem_cons_of_mem _ hq))
    · split
      · exact .ite (fun _ => .nil) fun _ => p.allPlaced_checkColumns hline _
      · exact .nil
    · exact .ite (fun _ => p.allPlaced_checkOwnLines heol hp) fun _ => .nil

end Alignment

/-- The rules on property declarations report inside the comment. -/
theorem Comment.Inside.checkProperties {c : Comment} (heol : s.eol ≠ [])
    (h : c.Inside lines s.eol) : AllPlaced s.first lines (checkProperties c.properties s) := by
  unfold DocCheck.checkProperties
  split
  · exact .nil
  · next p ps hprops =>
    have hp := h.properties p (hprops ▸ List.mem_cons_self)
    refine .append (.ite (fun _ => .nil) fun _ => .at_line (by omega) rfl)
      (Alignment.allPlaced_walk heol ⟨?_, ?_, ?_⟩ h.properties)
    · rintro _ _ ⟨⟩
    · rintro _ _ ⟨⟩
    · rintro _ ⟨⟩

end Alignment

section Checks

variable {cfg : Settings} {s : Stream} {b : Block} {anchor : Nat}

/-- A block that cannot be examined is reported at a line of the block. -/
theorem Block.allPlaced_of_read_error {v : Vocabulary} {scope : Scope} {issue : Issue}
    (heol : Text.HeadUnique scope.eol) (h : b.read v scope = .error issue) :
    AllPlaced scope.first (Margin.strip b.text scope.eol) [issue] := by
  unfold Block.read at h
  split at h
  · next e hparse =>
    cases h
    obtain ⟨t, ht, hline, -⟩ := Comment.exists_rawTag_of_parse_error hparse
    rw [hline]
    exact .at_line (RawTag.headerAt ht).lt rfl
  · next c hparse =>
    have hpos : 0 < (Margin.strip b.text scope.eol).length := by
      have := (Comment.inside_of_parse heol hparse).firstTag
      omega
    split at h
    · cases h
      exact .at_line hpos rfl
    · cases h

/-- The issues of a file comment that was found are placed inside it. -/
theorem allPlaced_fileIssues (hrules : cfg.UsesBuiltInRules) (heol : Text.HeadUnique s.eol)
    (hfound : s.fileBlock anchor cfg.directiveMarker = .found b) (hb : b.OneLinePerToken s) :
    AllPlaced b.first (Margin.strip b.text s.eol) (fileIssues cfg s anchor) := by
  have hlast := hb.length_strip (Stream.isIn_of_fileBlock hfound) heol
  have hscope : Text.HeadUnique (b.scope .file s cfg).eol := heol
  unfold fileIssues
  rw [hfound]
  dsimp only
  split
  · next issue hread =>
    exact Block.allPlaced_of_read_error hscope hread
  · next c hread =>
    have hinside := Comment.inside_of_parse hscope (Block.parse_of_read_ok hread)
    exact .append hinside.checkSpacing (hinside.checkTags hlast hrules.fileVocabulary)

/-- The issues of a class comment that was found are placed inside it. -/
theorem allPlaced_classIssues (hrules : cfg.UsesBuiltInRules) (heol : Text.HeadUnique s.eol)
    (hfound : s.classBlock anchor = .found b) (hb : b.OneLinePerToken s) :
    AllPlaced b.first (Margin.strip b.text s.eol) (classIssues cfg s anchor) := by
  have hlast := hb.length_strip (Stream.isIn_of_classBlock hfound) heol
  have hscope : Text.HeadUnique (b.scope .declaration s cfg).eol := heol
  unfold classIssues examineClass
  rw [hfound]
  dsimp only
  split
  · next issue hread =>
    exact Block.allPlaced_of_read_error hscope hread
  · next c hread =>
    have hinside := Comment.inside_of_parse hscope (Block.parse_of_read_ok hread)
    exact .append (.append (.append hinside.checkSpacing (hinside.checkProperties heol.ne_nil))
      hinside.checkUnknown) (hinside.checkTags hlast hrules.classVocabulary)

/-- An issue lies in the block, and one that names a tag lies on a token with that tag. -/
def Issue.LiesOn (i : Issue) (b : Block) (s : Stream) : Prop :=
  b.first ≤ i.position ∧ i.position ≤ b.last ∧
    ∀ tag, i.finding.headerTag? = some tag →
      ∃ t, s.tokens[i.position]? = some t ∧ t.text.contains ('@' :: tag)

/-- An issue that is placed on the lines of a block lies on its tokens. -/
theorem AllPlaced.liesOn (heol : Text.HeadUnique s.eol) (hin : b.IsIn s)
    (hb : b.OneLinePerToken s) {issues : List Issue}
    (h : AllPlaced b.first (Margin.strip b.text s.eol) issues) : ∀ i ∈ issues, i.LiesOn b s := by
  intro i hi
  obtain ⟨line, hposition, hline, htag⟩ := h i hi
  have hlast := hb.length_strip hin heol
  refine ⟨by omega, by omega, fun tag hfinding => ?_⟩
  obtain ⟨l, rest, hl, hheader⟩ := htag tag hfinding
  obtain ⟨t, ht, hpart⟩ := hb.exists_token hin heol hl
  obtain ⟨margin, hmargin, -, -⟩ := exists_margin_of_header? hheader
  refine ⟨t, hposition ▸ ht, Text.contains_iff_infix.mpr (List.IsInfix.trans ?_ hpart)⟩
  exact ⟨margin, rest, by simp [hmargin]⟩

/-- In a block of one-line tokens every issue lies inside the block, and one that names a tag lies
on a token with that tag, for file comments and for the comments of declarations. Further tags have
the usual rules; another one could report at any place. -/
theorem issues_lie_on_block {cfg : Settings} (hrules : cfg.UsesBuiltInRules) (s : Stream)
    (anchor : Nat) (b : Block) (heol : Text.IsLineEnd s.eol) (hb : b.OneLinePerToken s) :
    (s.fileBlock anchor cfg.directiveMarker = .found b →
      ∀ i ∈ fileIssues cfg s anchor, i.LiesOn b s) ∧
    (s.classBlock anchor = .found b → ∀ i ∈ classIssues cfg s anchor, i.LiesOn b s) := by
  have hunique := heol.headUnique
  constructor
  · intro hfound
    exact (allPlaced_fileIssues hrules hunique hfound hb).liesOn hunique
      (Stream.isIn_of_fileBlock hfound) hb
  · intro hfound
    exact (allPlaced_classIssues hrules hunique hfound hb).liesOn hunique
      (Stream.isIn_of_classBlock hfound) hb

end Checks

/-- A class whose comment has two packages. -/
def twoPackages : Stream where
  eol := "\r\n"
  tokens := [⟨.openTag, "<?php\r\n", 1⟩, ⟨.docComment, "/**\r\n", 2⟩,
    ⟨.docComment, " * Short.\r\n", 3⟩, ⟨.docComment, " *\r\n", 4⟩,
    ⟨.docComment, " * @package Foo\r\n", 5⟩, ⟨.docComment, " * @package Bar\r\n", 6⟩,
    ⟨.docComment, " */", 7⟩, ⟨.whitespace, "\r\n", 7⟩, ⟨.classWord, "class", 8⟩]

/-- The second package of a class is reported at the token with that tag. -/
theorem issues_lie_on_twoPackages :
    (twoPackages.block 1 6).OneLinePerToken twoPackages ∧
      twoPackages.classBlock 8 = .found (twoPackages.block 1 6) ∧
      ⟨5, .duplicateTag .declaration "package"⟩ ∈ classIssues {} twoPackages 8 ∧
      Issue.LiesOn ⟨5, .duplicateTag .declaration "package"⟩ (twoPackages.block 1 6)
        twoPackages := by
  have hlines : (twoPackages.block 1 6).OneLinePerToken twoPackages := by
    refine ⟨fun i t hfirst hlast ht => ⟨t.text.take (t.text.length - 2), ?_⟩, fun t ht => ?_⟩
    · change 1 ≤ i at hfirst
      change i < 6 at hlast
      have hi : i = 1 ∨ i = 2 ∨ i = 3 ∨ i = 4 ∨ i = 5 := by omega
      rcases hi with rfl | rfl | rfl | rfl | rfl
      all_goals
        obtain rfl := Option.some.inj ht
        decide
    · obtain rfl := Option.some.inj ht
      decide
  have hfound : twoPackages.classBlock 8 = .found (twoPackages.block 1 6) := by decide
  have hissue : ⟨5, .duplicateTag .declaration "package"⟩ ∈ classIssues {} twoPackages 8 := by
    decide +kernel
  have hrules : Settings.UsesBuiltInRules {} := fun g hg => by cases hg
  have hplaced := (issues_lie_on_block hrules twoPackages 8 _ (.inr rfl) hlines).2 hfound
  exact ⟨hlines, hfound, hissue, hplaced _ hissue⟩

end DocCheck
