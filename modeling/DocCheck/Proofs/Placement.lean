import DocCheck.Proofs.Stream.Block

/-!
# Which comment is found

The comment of a file and the comment of a declaration are looked for by several searches in a row.
This file says what comes out of them in terms of the tokens alone: the token in question is the
first one behind the open tag, or the last one in front of the keyword, that is not passed over; a
comment is the maximal run of documentation tokens around it; and the number of line ends up to
the declaration decides whether the run is taken.
-/

namespace DocCheck.Stream

variable {s : Stream} {p c i first last : Nat} {marker : Text}

section Neighbours

/-- The token at `i` is the first one behind `p` whose kind is wanted. -/
structure IsNext (s : Stream) (want : Kind → Prop) (p i : Nat) : Prop where
  behind : p < i
  wanted : ∃ k, s.kindAt? i = some k ∧ want k
  between : ∀ j k, p < j → j < i → s.kindAt? j = some k → ¬ want k

/-- The token at `i` is the last one in front of `p` whose kind is wanted. -/
structure IsPrevious (s : Stream) (want : Kind → Prop) (p i : Nat) : Prop where
  before : i < p
  wanted : ∃ k, s.kindAt? i = some k ∧ want k
  between : ∀ j k, i < j → j < p → s.kindAt? j = some k → ¬ want k

/-- A search from behind a position on finds the next wanted token. -/
theorem next?_eq_some_iff_isNext {search : Kind → Bool} {want : Kind → Prop}
    (hwant : ∀ k, search k = true ↔ want k) :
    s.next? search (p + 1) = some i ↔ s.IsNext want p i := by
  simp only [next?_eq_some_iff, Option.any_eq_true, Option.any_eq_false, hwant]
  constructor
  · rintro ⟨hbehind, hwanted, hbetween⟩
    refine ⟨hbehind, hwanted, fun j k hj hi hk => ?_⟩
    rw [← hwant, Bool.not_eq_true]
    exact hbetween j hj hi k hk
  · rintro ⟨hbehind, hwanted, hbetween⟩
    refine ⟨hbehind, hwanted, fun j hj hi k hk => ?_⟩
    rw [← Bool.not_eq_true, hwant]
    exact hbetween j k hj hi hk

/-- A search in front of a position finds the previous wanted token. -/
theorem previous?_eq_some_iff_isPrevious {search : Kind → Bool} {want : Kind → Prop}
    (hwant : ∀ k, search k = true ↔ want k) :
    s.previous? search p = some i ↔ s.IsPrevious want p i := by
  simp only [previous?_eq_some_iff, Option.any_eq_true, Option.any_eq_false, hwant]
  constructor
  · rintro ⟨hbefore, hwanted, hbetween⟩
    refine ⟨hbefore, hwanted, fun j k hj hi hk => ?_⟩
    rw [← hwant, Bool.not_eq_true]
    exact hbetween j hj hi k hk
  · rintro ⟨hbefore, hwanted, hbetween⟩
    refine ⟨hbefore, hwanted, fun j hj hi k hk => ?_⟩
    rw [← Bool.not_eq_true, hwant]
    exact hbetween j k hj hi hk

end Neighbours

section Run

/-- The tokens from `first` to `last` are a maximal run of documentation comment tokens. -/
structure IsRun (s : Stream) (first last : Nat) : Prop where
  nonempty : first ≤ last
  inside : ∀ i, first ≤ i → i ≤ last → s.kindAt? i = some .docComment
  before : ∀ i, i + 1 = first → s.kindAt? i ≠ some .docComment
  behind : s.kindAt? (last + 1) ≠ some .docComment

/-- Inside the stream a token that is nothing else is a documentation token. -/
theorem kindAt?_eq_docComment (hi : i < s.size)
    (h : (s.kindAt? i).any (· ≠ .docComment) = false) : s.kindAt? i = some .docComment := by
  rw [kindAt?, List.getElem?_eq_getElem hi] at h ⊢
  simpa using h

/-- A token of another kind is none of a documentation comment. -/
theorem kindAt?_ne_docComment (h : (s.kindAt? i).any (· ≠ .docComment) = true) :
    s.kindAt? i ≠ some .docComment := by
  intro hkind
  simp [hkind] at h

/-- The run of a documentation token that starts one ends at the end of its block. -/
theorem isRun_blockEnd (hfirst : s.kindAt? first = some .docComment)
    (hbefore : ∀ i, i + 1 = first → s.kindAt? i ≠ some .docComment) :
    s.IsRun first (s.blockEnd first) := by
  have hsize := lt_size_of_kindAt? hfirst
  have hbounds := blockEnd_bounds hsize
  -- Up to the end of the block no token is of another kind.
  have hother : ∀ j, first + 1 ≤ j → j ≤ s.blockEnd first →
      (s.kindAt? j).any (· ≠ .docComment) = false := by
    intro j hj hlast
    unfold blockEnd at hlast
    split at hlast
    · next i hi => exact (next?_eq_some_iff.mp hi).2.2 j hj (by omega)
    · next hnone => exact next?_eq_none_iff.mp hnone j hj
  refine ⟨hbounds.1, fun i hi hlast => ?_, hbefore, ?_⟩
  · rcases Nat.eq_or_lt_of_le hi with rfl | hlt
    · exact hfirst
    · exact kindAt?_eq_docComment (by omega) (hother i hlt hlast)
  · unfold blockEnd
    split
    · next i hi =>
      obtain ⟨hle, hwanted, -⟩ := next?_eq_some_iff.mp hi
      rw [show i - 1 + 1 = i by omega]
      exact kindAt?_ne_docComment hwanted
    · intro hkind
      have := lt_size_of_kindAt? hkind
      omega

/-- The run of a documentation token that ends one starts at the start of its block. -/
theorem isRun_blockStart (hlast : s.kindAt? last = some .docComment)
    (hbehind : s.kindAt? (last + 1) ≠ some .docComment) : s.IsRun (s.blockStart last) last := by
  have hsize := lt_size_of_kindAt? hlast
  have hother : ∀ j, s.blockStart last ≤ j → j < last →
      (s.kindAt? j).any (· ≠ .docComment) = false := by
    intro j hj hlt
    unfold blockStart at hj
    split at hj
    · next i hi => exact (previous?_eq_some_iff.mp hi).2.2 j hj hlt
    · next hnone => exact previous?_eq_none_iff.mp hnone j hlt
  refine ⟨blockStart_le s last, fun i hi hle => ?_, fun i hi => ?_, hbehind⟩
  · rcases Nat.eq_or_lt_of_le hle with rfl | hlt
    · exact hlast
    · exact kindAt?_eq_docComment (by omega) (hother i hi hlt)
  · unfold blockStart at hi
    split at hi
    · next j hj =>
      obtain rfl : i = j := by omega
      exact kindAt?_ne_docComment (previous?_eq_some_iff.mp hj).2.1
    · omega

/-- The first token of a run determines its last one. -/
theorem IsRun.last_unique {last' : Nat} (h : s.IsRun first last) (h' : s.IsRun first last') :
    last = last' := by
  have hle := h.nonempty
  have hle' := h'.nonempty
  rcases Nat.lt_trichotomy last last' with hlt | heq | hlt
  · exact absurd (h'.inside (last + 1) (by omega) (by omega)) h.behind
  · exact heq
  · exact absurd (h.inside (last' + 1) (by omega) (by omega)) h'.behind

/-- The last token of a run determines its first one. -/
theorem IsRun.first_unique {first' : Nat} (h : s.IsRun first last) (h' : s.IsRun first' last) :
    first = first' := by
  have hle := h.nonempty
  have hle' := h'.nonempty
  rcases Nat.lt_trichotomy first first' with hlt | heq | hlt
  · exact absurd (h.inside (first' - 1) (by omega) (by omega)) (h'.before _ (by omega))
  · exact heq
  · exact absurd (h'.inside (first - 1) (by omega) (by omega)) (h.before _ (by omega))

/-- The text of the tokens from `first` to `last`, one after the other. -/
theorem textBetween_eq (s : Stream) (first last : Nat) :
    s.textBetween first last =
      ((s.tokens.drop first).take (last + 1 - first)).flatMap (·.text) := by
  rw [textBetween, slice, List.drop_take]

end Run

section File

/-- The token at `i` is a plain comment that contains the marker of an editor directive. An empty
marker marks nothing. -/
def DirectiveAt (s : Stream) (marker : Text) (i : Nat) : Prop :=
  ∃ t, s.tokens[i]? = some t ∧ t.kind = .comment ∧ marker ≠ [] ∧ marker <:+: t.text

/-- The token at `i` is the first one behind `p` that is not white space, where one editor
directive in its place is passed over. -/
inductive Opens (s : Stream) (p : Nat) (marker : Text) : Nat → Prop
  | plain {i : Nat} : s.IsNext (· ≠ .whitespace) p i → ¬ s.DirectiveAt marker i →
      Opens s p marker i
  | behindDirective {d i : Nat} : s.IsNext (· ≠ .whitespace) p d → s.DirectiveAt marker d →
      s.IsNext (· ≠ .whitespace) d i → Opens s p marker i

/-- The run that starts at `first` belongs to a declaration: of the declarations and documentation
comments behind it a declaration comes first, with exactly one line end in between. -/
def BelongsToDeclaration (s : Stream) (first : Nat) : Prop :=
  ∃ last d, s.IsRun first last ∧
    s.IsNext (· ∈ [.abstractWord, .classWord, .interfaceWord, .traitWord, .functionWord,
      .docComment]) last d ∧
    s.kindAt? d ≠ some .docComment ∧ s.breaks (last + 1) d = 1

/-- The test for an editor directive is what it is meant to be. -/
theorem isDirective_iff :
    s.tokens[i]?.any (isDirective marker) = true ↔ s.DirectiveAt marker i := by
  simp only [Option.any_eq_true, DirectiveAt, isDirective, Bool.and_eq_true, decide_eq_true_eq,
    Bool.not_eq_true', List.isEmpty_eq_false_iff, Text.contains_iff_infix, and_assoc]

/-- The search finds the token that opens the script, and no other. -/
theorem fileCandidate?_eq_some_iff :
    s.fileCandidate? p marker = some i ↔ s.Opens p marker i := by
  have hsearch {p i : Nat} : s.next? (· ≠ .whitespace) (p + 1) = some i ↔
      s.IsNext (· ≠ .whitespace) p i := next?_eq_some_iff_isNext fun _ => decide_eq_true_iff
  unfold fileCandidate?
  constructor
  · intro h
    split at h
    · cases h
    · next d hd =>
      split at h
      · next hdirective =>
        exact .behindDirective (hsearch.mp hd) (isDirective_iff.mp hdirective) (hsearch.mp h)
      · next hdirective =>
        cases h
        exact .plain (hsearch.mp hd) (mt isDirective_iff.mpr hdirective)
  · rintro (⟨hnext, hplain⟩ | ⟨hnext, hdirective, hbehind⟩)
    · simp only [hsearch.mpr hnext]
      rw [if_neg (mt isDirective_iff.mp hplain)]
    · simp only [hsearch.mpr hnext]
      rw [if_pos (isDirective_iff.mpr hdirective), hsearch.mpr hbehind]

/-- At most one token opens a script. -/
theorem Opens.unique {i' : Nat} (h : s.Opens p marker i) (h' : s.Opens p marker i') : i = i' := by
  rw [← fileCandidate?_eq_some_iff] at h h'
  exact Option.some.inj (h.symm.trans h')

/-- The token that opens a script is in the stream. -/
theorem Opens.exists_kind (h : s.Opens p marker i) : ∃ k, s.kindAt? i = some k := by
  cases h with
  | plain h _ => exact h.wanted.imp fun _ hk => hk.1
  | behindDirective _ _ h => exact h.wanted.imp fun _ hk => hk.1

/-- What stands in front of the token in question is no documentation comment: it is white space,
the open tag or an editor directive. -/
theorem Opens.before (hp : s.kindAt? p = some .openTag) (h : s.Opens p marker i) :
    ∀ j, j + 1 = i → s.kindAt? j ≠ some .docComment := by
  -- Behind a token that is no documentation comment only white space is passed over.
  have hnext {p i : Nat} (hkind : s.kindAt? p ≠ some .docComment)
      (h : s.IsNext (· ≠ .whitespace) p i) : ∀ j, j + 1 = i → s.kindAt? j ≠ some .docComment := by
    intro j hj hdoc
    have hbehind := h.behind
    rcases Nat.eq_or_lt_of_le (show p ≤ j by omega) with rfl | hlt
    · exact hkind hdoc
    · exact h.between j .docComment hlt (by omega) hdoc Kind.noConfusion
  cases h with
  | plain h _ =>
    refine hnext ?_ h
    simp [hp]
  | behindDirective _ hdirective h =>
    refine hnext ?_ h
    obtain ⟨t, ht, hkind, -⟩ := hdirective
    simp [kindAt?, ht, hkind]

/-- The test for a declaration behind a run is the one on its tokens. -/
theorem IsRun.sitsOnDeclaration_iff (h : s.IsRun first last) :
    s.sitsOnDeclaration last = true ↔ s.BelongsToDeclaration first := by
  have hsearch {d : Nat} : s.next? followsFileComment (last + 1) = some d ↔
      s.IsNext (· ∈ [.abstractWord, .classWord, .interfaceWord, .traitWord, .functionWord,
        .docComment]) last d := by
    apply next?_eq_some_iff_isNext
    intro k
    cases k <;> decide
  have hone {d : Nat} : (s.hasLineBreak (last + 1) d && !s.hasBlankLine (last + 1) d) = true ↔
      s.breaks (last + 1) d = 1 := by
    rw [Bool.and_eq_true, Bool.not_eq_true', ← Bool.not_eq_true, hasLineBreak_iff,
      hasBlankLine_iff]
    omega
  unfold sitsOnDeclaration
  constructor
  · intro hsits
    split at hsits
    · cases hsits
    · next d hd =>
      rw [Bool.and_assoc, Bool.and_eq_true, hone, decide_eq_true_eq] at hsits
      exact ⟨last, d, h, hsearch.mp hd, hsits⟩
  · rintro ⟨last', d, hrun, hnext, hsits⟩
    obtain rfl := h.last_unique hrun
    simp only [hsearch.mpr hnext]
    rw [Bool.and_assoc, Bool.and_eq_true, hone, decide_eq_true_eq]
    exact hsits

/-- A later open tag carries no comment. -/
theorem fileBlock_of_earlier {q : Nat} (hq : q < p) (hopen : s.kindAt? q = some .openTag)
    (marker : Text) : s.fileBlock p marker = .notApplicable := by
  have hsome : (s.previous? (· = .openTag) p).isSome = true := by
    rw [Option.isSome_iff_ne_none]
    intro hnone
    have := previous?_eq_none_iff.mp hnone q hq
    simp [hopen] at this
  rw [fileBlock, if_pos hsome]

/-- In front of the first open tag there is none. -/
theorem previous?_openTag_eq_none (hfirst : ¬ ∃ q, q < p ∧ s.kindAt? q = some .openTag) :
    s.previous? (· = .openTag) p = none := by
  refine previous?_eq_none_iff.mpr fun q hq => ?_
  rw [Option.any_eq_false]
  intro k hk
  rw [decide_eq_false_iff_not]
  rintro rfl
  exact hfirst ⟨q, hq, hk⟩

/-- Where no token opens the file, its comment is missing. -/
theorem fileBlock_of_not_opens (hfirst : ¬ ∃ q, q < p ∧ s.kindAt? q = some .openTag)
    (hnone : ∀ i, ¬ s.Opens p marker i) : s.fileBlock p marker = .missing (p + 1) := by
  have hcandidate : s.fileCandidate? p marker = none := by
    rw [Option.eq_none_iff_forall_ne_some]
    exact fun i hi => hnone i (fileCandidate?_eq_some_iff.mp hi)
  simp [fileBlock, previous?_openTag_eq_none hfirst, hcandidate]

/-- A documentation comment that opens the file is found unless it belongs to a declaration. -/
theorem fileBlock_of_run (hfirst : ¬ ∃ q, q < p ∧ s.kindAt? q = some .openTag)
    (hi : s.Opens p marker i) (hdoc : s.kindAt? i = some .docComment)
    (hrun : s.IsRun i (s.blockEnd i)) :
    (s.BelongsToDeclaration i → s.fileBlock p marker = .missing (p + 1)) ∧
      (¬ s.BelongsToDeclaration i → s.fileBlock p marker = .found (s.block i (s.blockEnd i))) := by
  have hopen := previous?_openTag_eq_none hfirst
  have hcandidate := fileCandidate?_eq_some_iff.mpr hi
  have hsits := hrun.sitsOnDeclaration_iff
  constructor
  · intro hbelongs
    simp [fileBlock, hopen, hcandidate, hdoc, hsits.mpr hbelongs]
  · intro hbelongs
    simp [fileBlock, hopen, hcandidate, hdoc, mt hsits.mp hbelongs]

/-- Any other token that opens the file decides by its kind. -/
theorem fileBlock_of_other (hfirst : ¬ ∃ q, q < p ∧ s.kindAt? q = some .openTag)
    (hi : s.Opens p marker i) {k : Kind} (hk : s.kindAt? i = some k) (hdoc : k ≠ .docComment) :
    s.fileBlock p marker =
      if k = .closeTag then .notApplicable
      else if k = .comment then .wrongStyle (p + 1) else .missing (p + 1) := by
  have hopen := previous?_openTag_eq_none hfirst
  have hcandidate := fileCandidate?_eq_some_iff.mpr hi
  cases k <;> simp_all [fileBlock]

/-- Of a file nothing is expected at a later open tag or in front of a close tag. Otherwise the
token that opens the file decides: a plain comment is of the wrong style, and a documentation
comment is found with its whole run unless it belongs to a declaration. In all other cases the
comment is missing. -/
theorem fileBlock_decided (hp : s.kindAt? p = some .openTag) (marker : Text) :
    (s.fileBlock p marker = .notApplicable ↔
      (∃ q, q < p ∧ s.kindAt? q = some .openTag) ∨
        ∃ i, s.Opens p marker i ∧ s.kindAt? i = some .closeTag) ∧
    (s.fileBlock p marker ≠ .notApplicable →
      (s.fileBlock p marker = .wrongStyle (p + 1) ↔
        ∃ i, s.Opens p marker i ∧ s.kindAt? i = some .comment) ∧
      (s.fileBlock p marker ≠ .wrongStyle (p + 1) →
        ((∃ b, s.fileBlock p marker = .found b) ↔
          ∃ i, s.Opens p marker i ∧ s.kindAt? i = some .docComment ∧
            ¬ s.BelongsToDeclaration i) ∧
        ((∀ b, s.fileBlock p marker ≠ .found b) → s.fileBlock p marker = .missing (p + 1)))) ∧
    ∀ b, s.fileBlock p marker = .found b →
      s.Opens p marker b.first ∧ s.IsRun b.first b.last ∧
        b.text = ((s.tokens.drop b.first).take (b.last + 1 - b.first)).flatMap (·.text) := by
  by_cases hearlier : ∃ q, q < p ∧ s.kindAt? q = some .openTag
  · obtain ⟨q, hq, hopen⟩ := hearlier
    rw [fileBlock_of_earlier hq hopen]
    simp [show ∃ q, q < p ∧ s.kindAt? q = some .openTag from ⟨q, hq, hopen⟩]
  · by_cases hopens : ∃ i, s.Opens p marker i
    · obtain ⟨i, hi⟩ := hopens
      have honly {P : Nat → Prop} : (∃ j, s.Opens p marker j ∧ P j) ↔ P i := by
        constructor
        · rintro ⟨j, hj, hP⟩
          exact hi.unique hj ▸ hP
        · exact fun hP => ⟨i, hi, hP⟩
      simp only [honly, hearlier, false_or]
      by_cases hdoc : s.kindAt? i = some .docComment
      · have hrun := isRun_blockEnd hdoc (hi.before hp)
        obtain ⟨hmissing, hfound⟩ := fileBlock_of_run hearlier hi hdoc hrun
        by_cases hbelongs : s.BelongsToDeclaration i
        · rw [hmissing hbelongs]
          simp [hdoc, hbelongs]
        · rw [hfound hbelongs]
          refine ⟨by simp [hdoc], by simp [hdoc, hbelongs], ?_⟩
          rintro b hb
          cases hb
          exact ⟨hi, hrun, textBetween_eq _ _ _⟩
      -- The other kinds carry no block, so each outcome is read off the kind.
      · obtain ⟨k, hk⟩ := hi.exists_kind
        have hne : k ≠ .docComment := fun h => hdoc (h ▸ hk)
        rw [fileBlock_of_other hearlier hi hk hne]
        cases k <;> simp_all
    · have hnone : ∀ i, ¬ s.Opens p marker i := not_exists.mp hopens
      rw [fileBlock_of_not_opens hearlier hnone]
      simp [hearlier, hnone]

/-- A comment of two lines behind an editor directive, with a blank line in front of the class. -/
def directiveFirst : Stream where
  eol := "\n"
  tokens := [⟨.openTag, "<?php\n", 1⟩, ⟨.comment, "# vim: et", 2⟩, ⟨.whitespace, "\n", 2⟩,
    ⟨.docComment, "/**\n", 3⟩, ⟨.docComment, " */", 4⟩, ⟨.whitespace, "\n", 4⟩,
    ⟨.whitespace, "\n", 5⟩, ⟨.classWord, "class", 6⟩]

/-- An editor directive is passed over, and the block behind it is the file comment. -/
theorem fileBlock_decided_directiveFirst :
    directiveFirst.kindAt? 0 = some .openTag ∧
      directiveFirst.fileBlock 0 "vim:" = .found ⟨3, 4, "/**\n */"⟩ ∧
      directiveFirst.Opens 0 "vim:" 3 ∧ directiveFirst.IsRun 3 4 := by
  have hopen : directiveFirst.kindAt? 0 = some .openTag := by decide
  have hfound : directiveFirst.fileBlock 0 "vim:" = .found ⟨3, 4, "/**\n */"⟩ := by decide
  obtain ⟨hfirst, hrun, -⟩ := (fileBlock_decided hopen "vim:").2.2 _ hfound
  exact ⟨hopen, hfound, hfirst, hrun⟩

end File

section Class

/-- The token at `e` is the last one in front of `c` that is neither white space nor a modifier of
the declaration. -/
abbrev Precedes (s : Stream) (c e : Nat) : Prop :=
  s.IsPrevious (· ∉ [.whitespace, .abstractWord, .finalWord]) c e

/-- The search finds the token that decides about the comment of a declaration. -/
theorem previous?_leadsToClass_iff {e : Nat} :
    s.previous? (!leadsToClass ·) c = some e ↔ s.Precedes c e := by
  apply previous?_eq_some_iff_isPrevious
  intro k
  cases k <;> decide

/-- At most one token is the previous one of its sort. -/
theorem IsPrevious.unique {want : Kind → Prop} {i' : Nat} (h : s.IsPrevious want p i)
    (h' : s.IsPrevious want p i') : i = i' := by
  obtain ⟨k, hk, hwant⟩ := h.wanted
  obtain ⟨k', hk', hwant'⟩ := h'.wanted
  rcases Nat.lt_trichotomy i i' with hlt | heq | hlt
  · exact absurd hwant' (h.between i' k' hlt h'.before hk')
  · exact heq
  · exact absurd hwant (h'.between i k hlt h.before hk)

/-- Behind the token in question no documentation comment follows up to the keyword. -/
theorem IsPrevious.behind {e : Nat} (hc : (s.kindAt? c).any Kind.isClassLike) (h : s.Precedes c e) :
    s.kindAt? (e + 1) ≠ some .docComment := by
  intro hdoc
  have hbefore := h.before
  rcases Nat.eq_or_lt_of_le (show e + 1 ≤ c by omega) with rfl | hlt
  · simp [hdoc, Kind.isClassLike] at hc
  · exact h.between (e + 1) .docComment (by omega) hlt hdoc (by decide)

/-- The token in front of a run is the one that a search for another kind finds there. -/
theorem IsRun.previous?_first (h : s.IsRun first last) (hpos : 0 < first) :
    s.previous? (· ≠ .docComment) first = some (first - 1) := by
  have hsize := lt_size_of_kindAt? (h.inside first (Nat.le_refl _) h.nonempty)
  have hbefore := h.before (first - 1) (by omega)
  refine previous?_eq_some_iff.mpr ⟨by omega, ?_, by omega⟩
  rw [← Bool.not_eq_false]
  exact fun hdoc => hbefore (kindAt?_eq_docComment (by omega) hdoc)

/-- There is no previous documentation comment exactly if there is none at all in front. -/
theorem previous?_docComment_eq_none_iff {stop : Nat} :
    s.previous? (· = .docComment) stop = none ↔
      ∀ i, i < stop → s.kindAt? i ≠ some .docComment := by
  rw [previous?_eq_none_iff]
  refine forall₂_congr fun i _ => ?_
  cases s.kindAt? i <;> simp

/-- A run is taken for the file's exactly if it is the first documentation comment, something
precedes it, and a blank line separates it from the first class-like keyword. -/
theorem IsRun.isFileComment_iff (h : s.IsRun first last) :
    s.isFileComment first last c = true ↔
      (∀ i, i < c → (s.kindAt? i).any Kind.isClassLike = false) ∧ 0 < first ∧
        (∀ i, i < first → s.kindAt? i ≠ some .docComment) ∧ 2 ≤ s.breaks (last + 1) c := by
  rw [isFileComment, Bool.and_eq_true, Option.isNone_iff_eq_none, previous?_eq_none_iff]
  refine and_congr_right fun _ => ?_
  rcases Nat.eq_zero_or_pos first with rfl | hpos
  · have hnone : s.previous? (· ≠ .docComment) 0 = none :=
      previous?_eq_none_iff.mpr fun j hj => absurd hj (Nat.not_lt_zero j)
    simp only [hnone, Bool.false_eq_true, Nat.lt_irrefl, false_and]
  · -- The token in front of the run is of another kind, so it does not matter whether it counts.
    have hearlier : (∀ i, i < first - 1 → s.kindAt? i ≠ some .docComment) ↔
        ∀ i, i < first → s.kindAt? i ≠ some .docComment := by
      constructor
      · intro hall i hi
        rcases Nat.eq_or_lt_of_le (show i ≤ first - 1 by omega) with rfl | hlt
        · exact h.before _ (by omega)
        · exact hall i hlt
      · exact fun hall i hi => hall i (by omega)
    simp only [h.previous?_first hpos, Bool.and_eq_true, Option.isNone_iff_eq_none,
      previous?_docComment_eq_none_iff, hearlier, hasBlankLine_iff, hpos, true_and]

/-- A plain comment in front of a declaration is of the wrong style. -/
theorem classBlock_of_comment {e : Nat} (he : s.Precedes c e)
    (hkind : s.kindAt? e = some .comment) :
    s.classBlock c = .wrongStyle c := by
  simp only [classBlock, previous?_leadsToClass_iff.mpr he, hkind]

/-- A documentation comment in front of a declaration is its own unless the file has it. -/
theorem classBlock_of_run {e : Nat} (hc : (s.kindAt? c).any Kind.isClassLike)
    (he : s.Precedes c e) (hrun : s.IsRun first e) :
    s.classBlock c =
      if s.isFileComment first e c then .missing (c + 1) else .found (s.block first e) := by
  have hkind := hrun.inside e hrun.nonempty (Nat.le_refl _)
  obtain rfl := hrun.first_unique (isRun_blockStart hkind (he.behind hc))
  simp only [classBlock, previous?_leadsToClass_iff.mpr he, hkind]

/-- Without a comment in front of a declaration its comment is missing. -/
theorem classBlock_of_other
    (h : ∀ e, s.Precedes c e → s.kindAt? e ≠ some .comment ∧ s.kindAt? e ≠ some .docComment) :
    s.classBlock c = .missing c := by
  unfold classBlock
  split
  · rfl
  · next e he =>
    obtain ⟨hcomment, hdoc⟩ := h e (previous?_leadsToClass_iff.mp he)
    split
    · next hkind => exact absurd hkind hcomment
    · next hkind => exact absurd hkind hdoc
    · rfl

/-- The last token in front of a class-like keyword that is neither white space nor a modifier
decides: a plain comment is of the wrong style, the run of a documentation comment is found, and
nothing else is a comment. A run is given up, behind the keyword, exactly if the keyword is the
first of its kind, the run is the first documentation comment but not the start of the stream, and
two line ends stand in between. -/
theorem classBlock_decided (hc : (s.kindAt? c).any Kind.isClassLike) :
    (s.classBlock c = .wrongStyle c ↔ ∃ e, s.Precedes c e ∧ s.kindAt? e = some .comment) ∧
    (s.classBlock c = .missing c ↔
      (¬ ∃ e, s.Precedes c e) ∨
        ∃ e, s.Precedes c e ∧ s.kindAt? e ≠ some .comment ∧ s.kindAt? e ≠ some .docComment) ∧
    (∀ e, s.Precedes c e → s.kindAt? e = some .docComment →
      (∃ first, s.IsRun first e) ∧
      ∀ first, s.IsRun first e →
        (s.classBlock c = .missing (c + 1) ↔
          (∀ i, i < c → (s.kindAt? i).any Kind.isClassLike = false) ∧ 0 < first ∧
            (∀ i, i < first → s.kindAt? i ≠ some .docComment) ∧ 2 ≤ s.breaks (e + 1) c) ∧
        (s.classBlock c ≠ .missing (c + 1) →
          s.classBlock c =
            .found ⟨first, e, ((s.tokens.drop first).take (e + 1 - first)).flatMap (·.text)⟩)) ∧
    s.classBlock c ≠ .notApplicable := by
  have hrun {e : Nat} (he : s.Precedes c e) (hdoc : s.kindAt? e = some .docComment) :
      ∃ first, s.IsRun first e := ⟨_, isRun_blockStart hdoc (he.behind hc)⟩
  -- A run gives neither of the two outcomes that are reported at the keyword itself.
  have hdocument {e : Nat} (he : s.Precedes c e) (hdoc : s.kindAt? e = some .docComment) :
      s.classBlock c ≠ .wrongStyle c ∧ s.classBlock c ≠ .missing c := by
    obtain ⟨first, hfirst⟩ := hrun he hdoc
    rw [classBlock_of_run hc he hfirst]
    split <;> simp
  refine ⟨⟨fun hwrong => ?_, ?_⟩, ⟨fun hmissing => ?_, ?_⟩, ?_, classBlock_ne_notApplicable s c⟩
  · by_contra hnone
    have hother := classBlock_of_other (s := s) (c := c) fun e he =>
      ⟨fun hkind => hnone ⟨e, he, hkind⟩, fun hdoc => (hdocument he hdoc).1 hwrong⟩
    exact absurd (hwrong.symm.trans hother) Placement.noConfusion
  · rintro ⟨e, he, hkind⟩
    exact classBlock_of_comment he hkind
  · by_cases hexists : ∃ e, s.Precedes c e
    · obtain ⟨e, he⟩ := hexists
      refine .inr ⟨e, he, fun hkind => ?_, fun hdoc => (hdocument he hdoc).2 hmissing⟩
      exact absurd (hmissing.symm.trans (classBlock_of_comment he hkind)) Placement.noConfusion
    · exact .inl hexists
  · rintro (hnone | ⟨e, he, hkind⟩)
    · exact classBlock_of_other fun e he => absurd ⟨e, he⟩ hnone
    · exact classBlock_of_other fun e' he' => he.unique he' ▸ hkind
  · intro e he hdoc
    refine ⟨hrun he hdoc, fun first hfirst => ?_⟩
    rw [classBlock_of_run hc he hfirst, ← hfirst.isFileComment_iff, ← textBetween_eq]
    by_cases hfile : s.isFileComment first e c = true
    · simp [hfile]
    · simp [hfile, block]

/-- A final class behind a blank line and a comment of two lines. -/
def separatedClass : Stream where
  eol := "\n"
  tokens := [⟨.openTag, "<?php\n", 1⟩, ⟨.docComment, "/**\n", 2⟩, ⟨.docComment, " */", 3⟩,
    ⟨.whitespace, "\n", 3⟩, ⟨.whitespace, "\n", 4⟩, ⟨.finalWord, "final", 5⟩,
    ⟨.whitespace, " ", 5⟩, ⟨.classWord, "class", 5⟩]

/-- A comment that stands apart from the class belongs to the file. -/
theorem classBlock_decided_separatedClass :
    (separatedClass.kindAt? 7).any Kind.isClassLike ∧ separatedClass.Precedes 7 2 ∧
      separatedClass.IsRun 1 2 ∧ separatedClass.classBlock 7 = .missing 8 := by
  have hkeyword : (separatedClass.kindAt? 7).any Kind.isClassLike := by decide
  have hprecedes : separatedClass.Precedes 7 2 :=
    previous?_leadsToClass_iff.mp (by decide)
  have hrun : separatedClass.IsRun 1 2 :=
    isRun_blockEnd (by decide) fun i hi => by
      obtain rfl : i = 0 := by omega
      decide
  refine ⟨hkeyword, hprecedes, hrun, ?_⟩
  refine (((classBlock_decided hkeyword).2.2.1 2 hprecedes (by decide)).2 1 hrun).1.mpr ?_
  refine ⟨by decide, by decide, fun i hi => ?_, by decide⟩
  obtain rfl : i = 0 := by omega
  decide

end Class

end DocCheck.Stream
