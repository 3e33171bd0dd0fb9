import DocCheck.Proofs.Comment.TagList
import DocCheck.Proofs.Rule.Alignment

/-!
# The lines of a property comment

A comment on lines of its own stands below the lines of the declaration, possibly with blank lines
between. A line of such a comment is out of line if it does not start with the indentation of the
first one. Its number is counted from the tag, over the line ends in front of the comment and inside
it. Line ends inside the declaration are left out of this count, so a comment below a wrapped
declaration is reported that many lines too high.
-/

namespace DocCheck

open Text

/-- The lines of a declaration with a comment on lines of its own: those of type and name, blank
ones, the first line of the comment and the lines behind it. -/
structure CommentBelow (eol : Text) (ls decl gap : List Text) (first : Text)
    (further : List Text) : Prop where
  lines_eq : ls = decl ++ (gap ++ first :: further)
  gap_blank : ∀ l ∈ gap, l.isBlank
  first_shown : first.isBlank = false
  /-- A variable in front of the comment would be the name. -/
  declared : ∃ f : PropertyFields, f.IsDeclared ∧ f.declaration = join eol decl ∧
    (f.type ≠ [] ∨ f.name ≠ []) ∧ (f.name = [] → (first.dropWhile isGap).head? ≠ some '$')

/-- The declaration on line `h` has a comment on lines of its own. -/
def OwnLinesAt (v : Vocabulary) (eol : Text) (lines : List Text) (h : Nat) (decl gap : List Text)
    (first : Text) (further : List Text) : Prop :=
  ∃ name rest continuation g, TagAt lines h name rest continuation ∧ v.get? name = some g ∧
    g.shape = .property ∧ CommentBelow eol (rest :: continuation) decl gap first further

/-- Line `k` of a comment is one of a property comment on lines of its own, behind the first of
them, and does not start with the indentation of the first. The declaration goes on for `wrapped`
lines behind the line of its tag. -/
def MisalignedAt (v : Vocabulary) (eol : Text) (lines : List Text) (wrapped k : Nat) : Prop :=
  ∃ h decl gap first further l, OwnLinesAt v eol lines h decl gap first further ∧
    decl.length = wrapped + 1 ∧ h + decl.length + gap.length < k ∧
    k ≤ h + decl.length + gap.length + further.length ∧
    lines[k]? = some l ∧ l.isBlank = false ∧ ¬ first.takeWhile isGap <+: l

/-- Line `i` behind the first one of a comment below a declaration does not start with the
indentation of the first. -/
def MisalignedBelow (eol : Text) (ls decl gap : List Text) (i : Nat) : Prop :=
  ∃ first further l, CommentBelow eol ls decl gap first further ∧ further[i]? = some l ∧
    l.isBlank = false ∧ ¬ first.takeWhile isGap <+: l

/-- A line that shows something does so behind its indentation. -/
theorem dropGap_ne_nil {l : Text} (h : l.isBlank = false) : l.dropWhile isGap ≠ [] := by
  intro hnil
  rw [isBlank_of_isGap (List.dropWhile_eq_nil_iff.mp hnil)] at h
  cases h

/-- Behind the indentation of the first line no gap follows. -/
theorem isGap_head?_join_dropGap {l : Text} (h : l.isBlank = false) (eol : Text)
    (ls : List Text) : ∀ c ∈ (join eol (l.dropWhile isGap :: ls)).head?, isGap c = false := by
  intro c hc
  rw [head?_join (dropGap_ne_nil h)] at hc
  have hhead := List.head?_dropWhile_not isGap l
  rwa [hc] at hhead

/-- Line ends may stand in a gap. -/
theorem isGap_of_mem_lineEnd {eol : Text} (heol : IsLineEnd eol) : ∀ c ∈ eol, isGap c := by
  refine List.all_eq_true.mp ?_
  rcases heol with rfl | rfl <;> decide

/-- Several line ends may stand in a gap. -/
theorem isGap_of_mem_times {eol : Text} (heol : IsLineEnd eol) {n : Nat} {c : Char}
    (hc : c ∈ eol.times n) : isGap c := by
  obtain ⟨part, hpart, hc⟩ := List.mem_flatten.mp hc
  rw [(List.mem_replicate.mp hpart).2] at hc
  exact isGap_of_mem_lineEnd heol c hc

section Below

variable {eol first : Text} {t : RawTag} {decl gap further : List Text}

/-- The declaration of a comment below it has at least one line. -/
theorem CommentBelow.decl_ne_nil {ls : List Text}
    (h : CommentBelow eol ls decl gap first further) : decl ≠ [] := by
  obtain ⟨f, -, hdecl, hsome, -⟩ := h.declared
  rintro rfl
  have hnil : f.beforeType = [] ∧ f.type = [] ∧ f.beforeName = [] ∧ f.name = [] := by
    simpa [PropertyFields.declaration] using hdecl
  rcases hsome with htype | hname
  · exact htype hnil.2.1
  · exact hname hnil.2.2.2

/-- The declaration of a comment that is out of line has at least one line. -/
theorem MisalignedBelow.decl_ne_nil {ls : List Text} {i : Nat}
    (h : MisalignedBelow eol ls decl gap i) : decl ≠ [] := by
  obtain ⟨first, further, l, hbelow, -⟩ := h
  exact hbelow.decl_ne_nil

/-- The text of the tag: the declaration, a gap with the line ends behind it and the indentation of
the first line of the comment, and the comment. -/
theorem CommentBelow.exactText_eq (hstripped : ∀ l ∈ t.rest :: t.continuation, IsStripped eol l)
    (h : CommentBelow eol (t.rest :: t.continuation) decl gap first further) :
    t.exactText eol = join eol decl ++ (eol.times (gap.length + 1) ++ first.takeWhile isGap ++
      join eol (first.dropWhile isGap :: further.rdropWhile isBlank)) := by
  have hlines := h.lines_eq
  have hgap : gap = List.replicate gap.length [] := by
    refine List.eq_replicate_iff.mpr ⟨rfl, fun l hl => ?_⟩
    exact (hstripped l (by simp [hlines, hl])).eq_nil (h.gap_blank l hl)
  have hjoin := join_append_cons eol (first.takeWhile isGap) (first.dropWhile isGap)
    (further.rdropWhile isBlank)
  rw [List.takeWhile_append_dropWhile] at hjoin
  calc t.exactText eol
      = join eol (decl ++ (gap ++ first :: further.rdropWhile isBlank)) := by
        rw [RawTag.exactText_eq (hstripped _ List.mem_cons_self), hlines, ← List.append_assoc,
          rdropWhile_append_cons h.first_shown, List.append_assoc]
    _ = join eol decl ++ (eol ++ (eol.times gap.length ++
          join eol (first :: further.rdropWhile isBlank))) := by
        rw [join_append _ h.decl_ne_nil (by simp), hgap, join_replicate_nil_append,
          List.length_replicate]
    _ = _ := by
        rw [hjoin, times, times, List.replicate_succ, List.flatten_cons]
        simp only [List.append_assoc]

/-- The lines determine the fields. -/
theorem CommentBelow.fields (heol : IsLineEnd eol)
    (hstripped : ∀ l ∈ t.rest :: t.continuation, IsStripped eol l)
    (h : CommentBelow eol (t.rest :: t.continuation) decl gap first further) :
    (PropertyFields.ofText (t.exactText eol)).declaration = join eol decl ∧
      (PropertyFields.ofText (t.exactText eol)).beforeComment =
        eol.times (gap.length + 1) ++ first.takeWhile isGap ∧
      (PropertyFields.ofText (t.exactText eol)).comment =
        join eol (first.dropWhile isGap :: further.rdropWhile isBlank) := by
  obtain ⟨f, hf, hdecl, hsome, hvariable⟩ := h.declared
  have hinput := h.exactText_eq hstripped
  have hgap : ∀ c ∈ eol.times (gap.length + 1) ++ first.takeWhile isGap, isGap c := by
    intro c hc
    exact (List.mem_append.mp hc).elim (isGap_of_mem_times heol) List.mem_takeWhile_imp
  have hne : eol.times (gap.length + 1) ++ first.takeWhile isGap ≠ [] := by
    rw [times_succ]
    simp [heol.headUnique.ne_nil]
  have hreads : PropertyFields.Reads
      { f with
        beforeComment := eol.times (gap.length + 1) ++ first.takeWhile isGap
        comment := join eol (first.dropWhile isGap :: further.rdropWhile isBlank) }
      (t.exactText eol) (join eol (first.dropWhile isGap :: further.rdropWhile isBlank)) := by
    refine ⟨⟨hf.beforeType_gap, hf.beforeName_gap, hf.type_word, hf.name_word,
      hf.type_not_variable, hf.name_variable, hf.beforeName_iff⟩, ?_, ?_, hgap, ?_,
      isGap_head?_join_dropGap h.first_shown _ _, ?_, ?_⟩
    · rw [hinput, ← hdecl]
      rfl
    · refine (trimEnd_of_suffix ?_ (RawTag.trimEnd_exactText heol.isBlank hstripped)).symm
      rw [hinput, ← List.append_assoc]
      exact List.suffix_append _ _
    · intro c hc
      rw [List.head?_append_of_ne_nil _ hne] at hc
      exact isSpace_of_isGap (hgap c (List.mem_of_head? hc))
    · rw [head?_join (dropGap_ne_nil h.first_shown)]
      exact hvariable
    · exact fun htype hname => hsome.elim (absurd htype) (absurd hname)
  rw [hreads.ofText_eq]
  exact ⟨hdecl, rfl, rfl⟩

/-- What the rule takes from a declaration whose comment is on lines of its own. -/
theorem CommentBelow.property (heol : IsLineEnd eol)
    (hstripped : ∀ l ∈ t.rest :: t.continuation, IsStripped eol l)
    (h : CommentBelow eol (t.rest :: t.continuation) decl gap first further) {rank : Nat}
    {p : Property} (hp : t.property rank eol = .ok p) :
    p.ownLine eol ∧ p.indentation eol = first.takeWhile isGap ∧
      p.line + p.beforeComment.count eol = t.line + (gap.length + 1) ∧
      p.comment.splitOn eol = first.dropWhile isGap :: further.rdropWhile isBlank := by
  obtain ⟨-, hbefore, hcomment⟩ := h.fields heol hstripped
  have hfirst : IsStripped eol first := hstripped first (by simp [h.lines_eq])
  have hindent : ¬ eol <:+: first.takeWhile isGap := fun hpart =>
    hfirst.2 (hpart.trans (List.takeWhile_prefix _).isInfix)
  have hlast : p.beforeComment.afterLast? eol = some (first.takeWhile isGap) := by
    rw [RawTag.property_eq_ok hp]
    dsimp only
    rw [hbefore, times_succ, List.append_assoc, afterLast?_append heol.headUnique _ hindent]
  have hlines : ∀ l ∈ first.dropWhile isGap :: further.rdropWhile isBlank, ¬ eol <:+: l := by
    intro l hl
    rcases List.mem_cons.mp hl with rfl | hl
    · exact (hfirst.of_suffix (List.dropWhile_suffix _)).2
    · have hmem : l ∈ further := (List.rdropWhile_prefix _ _).subset hl
      exact (hstripped l (by simp [h.lines_eq, hmem])).2
  refine ⟨?_, ?_, ?_, ?_⟩
  · rw [Property.ownLine, hlast, Option.isSome_some]
  · rw [Property.indentation, hlast, Option.getD_some]
  · rw [RawTag.property_eq_ok hp]
    dsimp only
    rw [hbefore, count_times_append heol.headUnique.ne_nil, count,
      splitOn_of_not_infix heol.headUnique.ne_nil hindent]
    rfl
  · rw [RawTag.property_eq_ok hp]
    dsimp only
    rw [hcomment, splitOn_join heol.headUnique (List.cons_ne_nil _ _) hlines]

/-- Behind an indentation without line end the first line goes on. -/
theorem shown_of_join_eq (heol : IsLineEnd eol) {ind tail : Text} (hfirst : IsStripped eol first)
    (hind : ∀ c ∈ ind, isGap c) (hpart : ¬ eol <:+: ind) (htail : tail ≠ [])
    (hhead : ∀ c ∈ tail.head?, isGap c = false)
    (hjoin : join eol (first :: further) = ind ++ tail) :
    first.isBlank = false ∧ (first.dropWhile isGap).head? = tail.head? := by
  have hne : first ≠ [] := by
    rintro rfl
    by_cases hfurther : further = []
    · rw [hfurther, join_singleton] at hjoin
      exact htail (List.append_eq_nil_iff.mp hjoin.symm).2
    · -- An empty first line would put its line end into the indentation.
      rw [join_cons _ _ hfurther, List.nil_append] at hjoin
      have htake := congrArg (List.takeWhile isGap) hjoin
      rw [takeWhile_append_of_head? hind hhead,
        List.takeWhile_append_of_pos (isGap_of_mem_lineEnd heol)] at htake
      exact hpart (htake ▸ (List.prefix_append _ _).isInfix)
  have hshown : first.isBlank = false := isBlank_eq_false hne hfirst.1
  have hdrop := congrArg (List.dropWhile isGap) hjoin
  rw [dropWhile_append_of_head? hind hhead,
    ← List.takeWhile_append_dropWhile (p := isGap) (l := first), join_append_cons,
    dropWhile_append_of_head? (fun c hc => List.mem_takeWhile_imp hc)
      (isGap_head?_join_dropGap hshown _ _)] at hdrop
  refine ⟨hshown, ?_⟩
  rw [← hdrop, head?_join (dropGap_ne_nil hshown)]

/-- A line end in the gap in front of the comment puts the comment on lines of its own. -/
theorem exists_commentBelow (heol : IsLineEnd eol)
    (hstripped : ∀ l ∈ t.rest :: t.continuation, IsStripped eol l)
    (hbelow : eol <:+: (PropertyFields.ofText (t.exactText eol)).beforeComment) :
    ∃ decl gap first further,
      CommentBelow eol (t.rest :: t.continuation) decl gap first further := by
  have hunique := heol.headUnique
  obtain ⟨tail, hreads⟩ := PropertyFields.exists_reads_ofText (t.exactText eol)
  generalize PropertyFields.ofText (t.exactText eol) = f at hbelow hreads
  obtain ⟨above, ind, hbefore, hpart⟩ := exists_afterLast hunique.ne_nil hbelow
  have hgap : ∀ c ∈ above ++ (eol ++ ind), isGap c := hbefore ▸ hreads.beforeComment_gap
  have hne : f.beforeComment ≠ [] := by
    intro hnil
    rw [hnil] at hbelow
    exact hunique.ne_nil (List.infix_nil.mp hbelow)
  have hsome := hreads.type_or_name hne
  have htail := hreads.tail_ne_nil (RawTag.trimEnd_exactText heol.isBlank hstripped) hne
  obtain ⟨used, trailing, hlines, hexact⟩ : ∃ used trailing,
      t.rest :: t.continuation = used ++ trailing ∧ t.exactText eol = join eol used :=
    ⟨_, _, List.rdropWhile_append_rtakeWhile.symm,
      RawTag.exactText_eq (hstripped _ List.mem_cons_self)⟩
  have hused : ∀ l ∈ used, IsStripped eol l := fun l hl => hstripped l (by simp [hlines, hl])
  have hsplit : used = splitOn (f.declaration ++ above) eol ++ splitOn (ind ++ tail) eol := by
    have hne : used ≠ [] := by
      rintro rfl
      rw [hreads.input_eq, join_nil] at hexact
      simp [htail] at hexact
    rw [← splitOn_append_sep hunique, ← splitOn_join hunique hne fun l hl => (hused l hl).2,
      ← hexact, hreads.input_eq, hbefore]
    simp only [List.append_assoc]
  obtain ⟨first, further, hfirst⟩ :=
    List.exists_cons_of_ne_nil (splitOn_ne_nil hunique.ne_nil (ind ++ tail))
  have hjoin : join eol (first :: further) = ind ++ tail := by
    rw [← hfirst, join_splitOn hunique.ne_nil]
  rw [hfirst] at hsplit
  obtain ⟨hshown, hhead⟩ := shown_of_join_eq heol (hused first (by simp [hsplit]))
    (fun c hc => hgap c (by simp [hc])) hpart htail hreads.tail_head hjoin
  -- The lines above the comment end with those of the declaration, up to blank ones.
  have hdecl : f.declaration =
      join eol ((splitOn (f.declaration ++ above) eol).rdropWhile isBlank) := by
    have hblank : above.isBlank := isBlank_of_isGap fun c hc => hgap c (by simp [hc])
    rw [← trimEnd_join heol.isBlank fun l hl => (hused l (by simp [hsplit, hl])).1,
      join_splitOn hunique.ne_nil, trimEnd_append_of_isBlank _ hblank,
      hreads.toIsDeclared.trimEnd_declaration hsome]
  refine ⟨_, (splitOn (f.declaration ++ above) eol).rtakeWhile isBlank, first, further ++ trailing,
    ?_, fun l hl => List.mem_rtakeWhile_imp hl, hshown, f, hreads.toIsDeclared, hdecl, hsome, ?_⟩
  · rw [hlines, hsplit, ← List.append_assoc, List.rdropWhile_append_rtakeWhile]
    simp only [List.append_assoc, List.cons_append]
  · rw [hhead]
    exact hreads.tail_not_variable

end Below

section Report

variable {s : Scope}

/-- The lines of a comment that the rule reports, behind the first one. -/
theorem Property.mem_checkAlone_iff {p : Property} {first : Text} {further : List Text}
    (hcomment : p.comment.splitOn s.eol = first :: further) {position : Nat} :
    ⟨position, .propertyCommentLines⟩ ∈ p.checkAlone s ↔
      p.ownLine s.eol ∧ ∃ i, ∃ l : Text, further[i]? = some l ∧ l.isBlank = false ∧
        ¬ p.indentation s.eol <+: l ∧
        position = s.first + (p.line + p.beforeComment.count s.eol + (i + 1)) := by
  have hparts : ⟨position, .propertyCommentLines⟩ ∉ p.checkParts s := by
    simp [checkParts, Scope.at]
  have hindent : ⟨position, .propertyCommentLines⟩ ∉
      (if (p.indentation s.eol).byteLength = p.tag.byteLength + 3 then [] else
        [s.at p.line .propertyCommentIndent]) := by
    simp [Scope.at]
  have hdrop : (first :: further).zipIdx.drop 1 = further.zipIdx 1 := rfl
  simp only [checkAlone, checkOwnLines, List.mem_append, hparts, hindent, false_or,
    List.mem_ite_nil_right, hcomment, hdrop, List.mem_filterMap]
  refine and_congr_right fun _ => ⟨?_, ?_⟩
  · rintro ⟨⟨l, i⟩, hmem, hfound⟩
    obtain ⟨hle, hl⟩ := List.mk_mem_zipIdx_iff_le_and_getElem?_sub.mp hmem
    dsimp only at hfound
    split at hfound
    · cases hfound
    · next hother =>
      rw [Bool.or_eq_true, not_or, List.isPrefixOf_iff_prefix, Bool.not_eq_true] at hother
      refine ⟨i - 1, l, hl, hother.1, hother.2, ?_⟩
      have hposition := congrArg Issue.position (Option.some.inj hfound)
      simp only [Scope.at] at hposition
      omega
  · rintro ⟨i, l, hl, hshown, hprefix, rfl⟩
    refine ⟨(l, i + 1), List.mk_mem_zipIdx_iff_le_and_getElem?_sub.mpr ⟨by omega, hl⟩, ?_⟩
    rw [if_neg (by simpa [hshown] using hprefix)]
    rfl

variable {raw : Text} {t : RawTag}

/-- The rule reports the lines out of line, counted from the tag without the line ends inside the
declaration. -/
theorem RawTag.mem_checkAlone_iff (heol : IsLineEnd s.eol)
    (ht : t ∈ rawTags (Margin.strip raw s.eol)) {rank : Nat} {p : Property}
    (hp : t.property rank s.eol = .ok p) {position : Nat} :
    ⟨position, .propertyCommentLines⟩ ∈ p.checkAlone s ↔
      ∃ decl gap i, MisalignedBelow s.eol (t.rest :: t.continuation) decl gap i ∧
        position = s.first + (t.line + (gap.length + 1) + (i + 1)) := by
  have hstripped : ∀ l ∈ t.rest :: t.continuation, IsStripped s.eol l := fun l hl =>
    isStripped_of_mem heol.headUnique.ne_nil ht hl
  constructor
  · intro h
    have hbelow : s.eol <:+: p.beforeComment := by
      obtain ⟨first, further, hcomment⟩ :=
        List.exists_cons_of_ne_nil (splitOn_ne_nil heol.headUnique.ne_nil p.comment)
      rw [← contains_iff_infix, ← Property.ownLine_eq_contains]
      exact ((Property.mem_checkAlone_iff hcomment).mp h).1
    rw [property_eq_ok hp] at hbelow
    obtain ⟨decl, gap, first, further, hbelow⟩ := exists_commentBelow heol hstripped hbelow
    obtain ⟨-, hindent, hline, hcomment⟩ := hbelow.property heol hstripped hp
    rw [Property.mem_checkAlone_iff hcomment, hindent, hline] at h
    obtain ⟨-, i, l, hl, hshown, hprefix, hposition⟩ := h
    exact ⟨decl, gap, i, ⟨first, further, l, hbelow, (getElem?_rdropWhile_iff hshown).mp hl, hshown,
      hprefix⟩, hposition⟩
  · rintro ⟨decl, gap, i, ⟨first, further, l, hbelow, hl, hshown, hprefix⟩, hposition⟩
    obtain ⟨hown, hindent, hline, hcomment⟩ := hbelow.property heol hstripped hp
    rw [Property.mem_checkAlone_iff hcomment, hindent, hline]
    exact ⟨hown, i, l, (getElem?_rdropWhile_iff hshown).mpr hl, hshown, hprefix, hposition⟩

end Report

section Lines

variable {v : Vocabulary} {eol : Text} {lines : List Text} {h k : Nat} {name rest : Text}
  {continuation : List Text}

/-- The lines behind the first one of a comment are lines behind the tag. -/
theorem CommentBelow.getElem?_add {decl gap further : List Text} {first : Text}
    (hbelow : CommentBelow eol (rest :: continuation) decl gap first further)
    (hat : TagAt lines h name rest continuation) {i : Nat} (hi : i < further.length) :
    lines[h + decl.length + gap.length + (i + 1)]? = further[i]? := by
  have hpos := List.length_pos_of_ne_nil hbelow.decl_ne_nil
  have hlength := congrArg List.length hbelow.lines_eq
  simp only [List.length_cons, List.length_append] at hlength
  have hline : h + decl.length + gap.length + (i + 1) =
      h + 1 + (decl.length + gap.length + i) := by omega
  rw [hline, hat.getElem?_add (by omega), ← List.getElem?_cons_succ, hbelow.lines_eq,
    List.getElem?_append_right (by omega), List.getElem?_append_right (by omega)]
  have hindex : decl.length + gap.length + i + 1 - decl.length - gap.length = i + 1 := by omega
  rw [hindex, List.getElem?_cons_succ]

/-- The lines out of line, by the tags of the comment. -/
theorem misalignedAt_iff {wrapped : Nat} :
    MisalignedAt v eol lines wrapped k ↔ ∃ t ∈ rawTags lines, ∃ g decl gap i,
      v.get? t.name = some g ∧ g.shape = .property ∧
        MisalignedBelow eol (t.rest :: t.continuation) decl gap i ∧
        decl.length = wrapped + 1 ∧ k = t.line + decl.length + gap.length + (i + 1) := by
  constructor
  · rintro ⟨h, decl, gap, first, further, l, ⟨name, rest, continuation, g, hat, hg, hshape, hbelow⟩,
      hwrapped, hk, hk', hl, hshown, hprefix⟩
    obtain ⟨i, rfl⟩ : ∃ i, k = h + decl.length + gap.length + (i + 1) :=
      ⟨k - (h + decl.length + gap.length + 1), by omega⟩
    rw [hbelow.getElem?_add hat (by omega)] at hl
    obtain ⟨t, ht, rfl, rfl, rfl, rfl⟩ := hat.exists_rawTag
    exact ⟨t, ht, g, decl, gap, i, hg, hshape, ⟨first, further, l, hbelow, hl, hshown, hprefix⟩,
      hwrapped, rfl⟩
  · rintro ⟨t, ht, g, decl, gap, i, hg, hshape, ⟨first, further, l, hbelow, hl, hshown, hprefix⟩,
      hwrapped, rfl⟩
    obtain ⟨hi, -⟩ := List.getElem?_eq_some_iff.mp hl
    have hat := RawTag.tagAt ht
    refine ⟨t.line, decl, gap, first, further, l, ⟨_, _, _, g, hat, hg, hshape, hbelow⟩, hwrapped,
      by omega, by omega, ?_, hshown, hprefix⟩
    rw [hbelow.getElem?_add hat hi, hl]

end Lines

section Positions

variable {raw : Text} {v : Vocabulary} {s : Scope}

/-- The number of lines that a declaration goes on for is that of the line ends in its type and
name. -/
theorem MisalignedAt.exists_rawTag {eol : Text} (heol : IsLineEnd eol) {wrapped k : Nat}
    (h : MisalignedAt v eol (Margin.strip raw eol) wrapped k) :
    ∃ t ∈ rawTags (Margin.strip raw eol),
      wrapped = (PropertyFields.ofText (t.exactText eol)).declaration.count eol ∧
      t.line + wrapped < k ∧ k ≤ t.line + t.continuation.length := by
  obtain ⟨t, ht, g, decl, gap, i, -, -, ⟨first, further, l, hbelow, hl, -, -⟩, hwrapped, rfl⟩ :=
    misalignedAt_iff.mp h
  have hstripped : ∀ l ∈ t.rest :: t.continuation, IsStripped eol l := fun l hl =>
    RawTag.isStripped_of_mem heol.headUnique.ne_nil ht hl
  have hlength := congrArg List.length hbelow.lines_eq
  simp only [List.length_cons, List.length_append] at hlength
  obtain ⟨hi, -⟩ := List.getElem?_eq_some_iff.mp hl
  refine ⟨t, ht, ?_, by omega, by omega⟩
  have hdecl : ∀ l ∈ decl, ¬ eol <:+: l := fun l hl =>
    (hstripped l (by simp [hbelow.lines_eq, hl])).2
  rw [(hbelow.fields heol hstripped).1, count_join heol.headUnique hbelow.decl_ne_nil hdecl]
  omega

/-- The line at which a line out of line is reported belongs to the same declaration. -/
theorem MisalignedAt.wrapped_eq {eol : Text} (heol : IsLineEnd eol) {wrapped wrapped' k : Nat}
    (h : MisalignedAt v eol (Margin.strip raw eol) wrapped k)
    (h' : MisalignedAt v eol (Margin.strip raw eol) wrapped' (k - wrapped)) :
    wrapped' = wrapped := by
  obtain ⟨t, ht, hwrapped, hlt, hle⟩ := h.exists_rawTag heol
  obtain ⟨t', ht', hwrapped', hlt', hle'⟩ := h'.exists_rawTag heol
  have hat := RawTag.tagAt ht
  have hat' := RawTag.tagAt ht'
  have hline : t.line = t'.line :=
    hat.line_eq hat' (k := k - wrapped) (by omega) (by omega) (by omega) (by omega)
  rw [hline] at hat
  obtain ⟨-, hrest, hcont⟩ := hat.unique hat'
  rw [hwrapped', hwrapped, RawTag.exactText, RawTag.exactText, hrest, hcont]

/-- The issues with the lines of property comments: each line out of line is reported, as many lines
too high as the declaration above it is wrapped. -/
theorem mem_checkProperties_commentLines {c : Comment} (heol : IsLineEnd s.eol)
    (hparse : Comment.parse raw v s.eol = .ok c) (position : Nat) :
    ⟨position, .propertyCommentLines⟩ ∈ checkProperties c.properties s ↔
      ∃ wrapped k, MisalignedAt v s.eol (Margin.strip raw s.eol) wrapped k ∧
        position + wrapped = s.first + k := by
  rw [mem_checkProperties_iff rfl]
  constructor
  · rintro ⟨p, hp, hmem⟩
    obtain ⟨t, ht, g, rank, hg, hshape, htp⟩ := exists_rawTag_of_mem_properties hparse hp
    obtain ⟨decl, gap, i, hbelow, rfl⟩ := (RawTag.mem_checkAlone_iff heol ht htp).mp hmem
    have hpos := List.length_pos_of_ne_nil hbelow.decl_ne_nil
    exact ⟨decl.length - 1, t.line + decl.length + gap.length + (i + 1), misalignedAt_iff.mpr
      ⟨t, ht, g, decl, gap, i, hg, hshape, hbelow, by omega, rfl⟩, by omega⟩
  · rintro ⟨wrapped, k, hmis, hposition⟩
    obtain ⟨t, ht, g, decl, gap, i, hg, hshape, hbelow, hwrapped, rfl⟩ := misalignedAt_iff.mp hmis
    obtain ⟨p, hp, rank, htp⟩ := exists_property_of_mem_rawTags hparse ht hg hshape
    exact ⟨p, hp, (RawTag.mem_checkAlone_iff heol ht htp).mpr ⟨decl, gap, i, hbelow, by omega⟩⟩

/-- A line of a property comment that is out of line is reported, and nothing else is, but as many
lines too high as type and name of the declaration are wrapped. So the reports are at the lines
themselves exactly if no declaration above a line out of line is wrapped. -/
theorem commentLines_reported_exactly {c : Comment} (heol : IsLineEnd s.eol)
    (hparse : Comment.parse raw v s.eol = .ok c) :
    (∀ position, ⟨position, .propertyCommentLines⟩ ∈ checkProperties c.properties s ↔
      ∃ wrapped k, MisalignedAt v s.eol (Margin.strip raw s.eol) wrapped k ∧
        position + wrapped = s.first + k) ∧
    ((∀ k, s.at k .propertyCommentLines ∈ checkProperties c.properties s ↔
        ∃ wrapped, MisalignedAt v s.eol (Margin.strip raw s.eol) wrapped k) ↔
      ∀ wrapped k, MisalignedAt v s.eol (Margin.strip raw s.eol) wrapped k → wrapped = 0) := by
  have hreported := mem_checkProperties_commentLines heol hparse
  refine ⟨hreported, ?_, ?_⟩
  · intro hexact wrapped k h
    by_contra hne
    -- A report above its line is itself the line of a report, of the same declaration.
    induction k using Nat.strong_induction_on with
    | _ k ih =>
      obtain ⟨t, -, -, hlt, -⟩ := h.exists_rawTag heol
      have hmem : s.at (k - wrapped) .propertyCommentLines ∈ checkProperties c.properties s :=
        (hreported _).mpr ⟨wrapped, k, h, by omega⟩
      obtain ⟨wrapped', h'⟩ := (hexact _).mp hmem
      obtain rfl := h.wrapped_eq heol h'
      exact ih (k - wrapped') (by omega) h'
  · intro hzero k
    constructor
    · intro hmem
      obtain ⟨wrapped, j, h, hposition⟩ := (hreported _).mp hmem
      obtain rfl := hzero wrapped j h
      obtain rfl : k = j := by omega
      exact ⟨0, h⟩
    · rintro ⟨wrapped, h⟩
      obtain rfl := hzero wrapped k h
      exact (hreported _).mpr ⟨0, k, h, rfl⟩

/-- A comment with a declaration on three lines; a blank line separates it from its comment. -/
def threeLines : Text :=
  "/**\n * @property\n *   int\n *   $a\n *\n *           First\n *      second\n */"

/-- The second line of the property comment is line 6. It is reported on line 4, which is blank. -/
theorem commentLines_reported_threeLines :
    ∃ c, Comment.parse threeLines .classComment "\n" = .ok c ∧
      MisalignedAt .classComment "\n" (Margin.strip threeLines "\n") 2 6 ∧
      (Margin.strip threeLines "\n")[4]? = some [] ∧
      ⟨14, .propertyCommentLines⟩ ∈ checkProperties c.properties ⟨.file, 10, 20, "\n", []⟩ ∧
      ¬ ∀ k, ⟨10 + k, .propertyCommentLines⟩ ∈
          checkProperties c.properties ⟨.file, 10, 20, "\n", []⟩ ↔
        ∃ wrapped, MisalignedAt .classComment "\n" (Margin.strip threeLines "\n") wrapped k := by
  have hparse : Comment.parse threeLines .classComment "\n" = .ok {
      breaksAfter := 1, firstTag := some 1
      tags := [⟨"property", "properties", 1, "\n", .property {
        tag := "property", beforeType := "\n   ", type := "int", beforeName := "\n   ", name := "$a"
        beforeComment := "\n\n           ", comment := "First\n      second", above := "\n"
        rank := 1, line := 1 }⟩]
      order := ["comment", "property"] } := by decide +kernel
  have hlines : Margin.strip threeLines "\n" =
      [[], " @property".toList, "   int".toList, "   $a".toList, [], "           First".toList,
        "      second".toList, []] := by decide +kernel
  obtain ⟨tail, hreads⟩ := PropertyFields.exists_reads_ofText "\n   int\n   $a"
  have hmis : MisalignedAt .classComment "\n" (Margin.strip threeLines "\n") 2 6 := by
    rw [hlines]
    refine ⟨1, [[], "   int".toList, "   $a".toList], [[]], "           First".toList,
      ["      second".toList], "      second".toList, ?_, rfl, by decide, by decide, rfl, by decide,
      by decide⟩
    exact ⟨"property", [], _, Vocabulary.propertyTag "property",
      ⟨by decide +kernel, rfl⟩, rfl, rfl, by decide +kernel, by decide, by decide, _,
      hreads.toIsDeclared, by decide, .inl (by decide), fun h => absurd h (by decide)⟩
  have hreported := commentLines_reported_exactly (s := ⟨.file, 10, 20, "\n", []⟩) (.inl rfl) hparse
  refine ⟨_, hparse, hmis, by rw [hlines]; rfl, (hreported.1 14).mpr ⟨2, 6, hmis, rfl⟩, ?_⟩
  intro hexact
  exact absurd (hreported.2.mp hexact 2 6 hmis) (by decide)

end Positions

end DocCheck
