import DocCheck.Proofs.Comment.Conservation
import DocCheck.Proofs.Comment.TagList

/-!
# Comments that cannot be read

Reading a comment fails at the first tag that is malformed. Which tags are malformed can be told
from the stripped lines and the vocabulary alone: a tag that takes no content must not have any, and
in the declaration of a property white space has to stand behind the tag and in front of the
variable. All other tags can be read, whatever they hold.
-/

namespace DocCheck

open Text

/-- The first word of a text, behind spaces, tabs and line ends. -/
def firstWord (t : Text) : Text := (t.dropWhile isGap).takeWhile (!isSpace ·)

/-- What makes a tag malformed, by the shape its grammar prescribes. -/
inductive Faulty (eol rest : Text) (continuation : List Text) : Shape → TagFault → Prop where
  /-- A tag that takes no content has a line that is not blank. -/
  | content (l : Text) (hl : l ∈ rest :: continuation) (hshown : l.isBlank = false) :
      Faulty eol rest continuation .leaf .unexpectedContent
  /-- A character that is no white space directly follows the name of the tag. -/
  | gluedName (c : Char) (hc : rest.head? = some c) (hshown : isSpace c = false) :
      Faulty eol rest continuation .property (.missingSeparator .typeName)
  /-- The first word is no variable, but there is one in it. -/
  | gluedVariable (hname : ∀ c ∈ rest.head?, isSpace c)
      (hword : (firstWord (join eol (rest :: continuation))).head? ≠ some '$')
      (hmem : '$' ∈ firstWord (join eol (rest :: continuation))) :
      Faulty eol rest continuation .property (.missingSeparator .variableName)

/-- The tag on line `k` of a comment cannot be read. -/
def MalformedAt (v : Vocabulary) (eol : Text) (lines : List Text) (k : Nat) (name : Text)
    (fault : TagFault) : Prop :=
  ∃ rest continuation g, TagAt lines k name rest continuation ∧ v.get? name = some g ∧
    Faulty eol rest continuation g.shape fault

section Words

/-- White space behind a text does not go on with the word at its start. -/
theorem takeWord_append_of_isBlank (t : Text) {blank : Text} (h : blank.isBlank) :
    (t ++ blank).takeWhile (!isSpace ·) = t.takeWhile (!isSpace ·) := by
  induction t with
  | nil =>
    cases blank with
    | nil => rfl
    | cons c blank =>
      have hc : isSpace c := List.all_eq_true.mp h c List.mem_cons_self
      simp [hc]
  | cons c t ih => rw [List.cons_append, List.takeWhile_cons, List.takeWhile_cons, ih]

/-- White space behind a text does not change its first word. -/
theorem firstWord_append_of_isBlank (t : Text) {blank : Text} (h : blank.isBlank) :
    firstWord (t ++ blank) = firstWord t := by
  unfold firstWord
  induction t with
  | nil =>
    have hdrop : Text.isBlank (blank.dropWhile isGap) :=
      List.all_eq_true.mpr fun c hc =>
        List.all_eq_true.mp h c ((List.dropWhile_sublist _).subset hc)
    exact takeWord_append_of_isBlank [] hdrop
  | cons c t ih =>
    rw [List.cons_append, List.dropWhile_cons, List.dropWhile_cons]
    split
    · exact ih
    · exact takeWord_append_of_isBlank (c :: t) h

/-- The type of a declaration is its first word, unless that is a variable. -/
theorem PropertyFields.type_ofText (input : Text) :
    (ofText input).type = if isVariable (firstWord input) then [] else firstWord input := by
  unfold ofText firstWord
  dsimp only
  split
  · rfl
  · split <;> rfl

/-- There is a variable in the type exactly if the first word is none but has one in it. -/
theorem PropertyFields.mem_type_ofText_iff (input : Text) :
    '$' ∈ (ofText input).type ↔
      (firstWord input).head? ≠ some '$' ∧ '$' ∈ firstWord input := by
  rw [type_ofText, ne_eq, ← isVariable_iff]
  by_cases h : isVariable (firstWord input) <;> simp [h]

end Words

section Faults

variable {eol : Text}

/-- Behind its last line with text a tag has white space only. -/
theorem RawTag.exists_blank_exactText (heol : eol.isBlank) (t : RawTag) :
    ∃ blank, join eol (t.rest :: t.continuation) = t.exactText eol ++ blank ∧ blank.isBlank := by
  have hsplit : t.continuation =
      t.continuation.rdropWhile isBlank ++ t.continuation.rtakeWhile isBlank :=
    List.rdropWhile_append_rtakeWhile.symm
  have hblank : ∀ l ∈ t.continuation.rtakeWhile isBlank, l.isBlank := fun l hl =>
    List.mem_rtakeWhile_imp hl
  generalize t.continuation.rtakeWhile isBlank = trailing at hsplit hblank
  by_cases htrailing : trailing = []
  · refine ⟨[], ?_, rfl⟩
    conv_lhs => rw [hsplit, htrailing, List.append_nil]
    rw [List.append_nil]
    rfl
  · refine ⟨eol ++ join eol trailing, ?_, ?_⟩
    · conv_lhs => rw [hsplit, ← List.cons_append,
        join_append _ (List.cons_ne_nil _ _) htrailing]
      rfl
    · rw [← visible_eq_nil_iff, visible_append, visible_of_isBlank heol, visible_join heol,
        visibleAll_of_isBlank hblank, List.nil_append]

/-- A tag has no content exactly if all its lines are blank. -/
theorem RawTag.joinedText_eq_nil_iff (heol : eol.isBlank) (t : RawTag) :
    t.joinedText eol = [] ↔ ∀ l ∈ t.rest :: t.continuation, l.isBlank := by
  rw [joinedText, trim_eq_nil_iff, ← visible_eq_nil_iff, visible_join heol,
    visibleAll_map visible_trim, visibleAll, List.flatMap_eq_nil_iff]
  simp only [visible_eq_nil_iff]

/-- Reading a property declaration fails if the name of the tag or the variable is glued to what
precedes it. -/
theorem RawTag.property_eq_error_iff (heol : eol.isBlank) (t : RawTag) (rank : Nat)
    {fault : TagFault} :
    t.property rank eol = .error fault ↔ Faulty eol t.rest t.continuation .property fault := by
  obtain ⟨blank, htext, hblank⟩ := t.exists_blank_exactText heol
  have hword : firstWord (t.exactText eol) = firstWord (join eol (t.rest :: t.continuation)) := by
    rw [htext, firstWord_append_of_isBlank _ hblank]
  unfold RawTag.property
  by_cases hglued : t.rest.head?.any (!isSpace ·)
  · obtain ⟨c, hc, hshown⟩ := (Option.any_eq_true _ _).mp hglued
    have hshown : isSpace c = false := by simpa using hshown
    rw [if_pos hglued, Except.error.injEq]
    constructor
    · rintro rfl
      exact .gluedName c hc hshown
    · intro h
      cases h with
      | gluedName => rfl
      | gluedVariable hname => exact absurd (hname c hc) (by simp [hshown])
  · have hname : ∀ c ∈ t.rest.head?, isSpace c := by
      intro c hc
      simpa [Option.mem_def.mp hc] using hglued
    have hmem := PropertyFields.mem_type_ofText_iff (t.exactText eol)
    rw [hword] at hmem
    rw [if_neg hglued]
    dsimp only
    by_cases htype : '$' ∈ (PropertyFields.ofText (t.exactText eol)).type
    · rw [if_pos (List.elem_iff.mpr htype), Except.error.injEq]
      constructor
      · rintro rfl
        exact .gluedVariable hname (hmem.mp htype).1 (hmem.mp htype).2
      · intro h
        cases h with
        | gluedName c hc hshown => exact absurd (hname c hc) (by simp [hshown])
        | gluedVariable => rfl
    · rw [if_neg (mt List.elem_iff.mp htype)]
      constructor
      · intro h
        cases h
      · intro h
        cases h with
        | gluedName c hc hshown => exact absurd (hname c hc) (by simp [hshown])
        | gluedVariable _ hhead hword => exact absurd (hmem.mpr ⟨hhead, hword⟩) htype

/-- Reading a tag fails exactly if it is malformed; its rank does not matter. -/
theorem RawTag.element_eq_error_iff (heol : eol.isBlank) {t : RawTag} {shape : Shape} {rank : Nat}
    {fault : TagFault} :
    t.element shape rank eol = .error fault ↔ Faulty eol t.rest t.continuation shape fault := by
  cases shape with
  | leaf =>
    simp only [RawTag.element, List.isEmpty_iff, t.joinedText_eq_nil_iff heol]
    constructor
    · intro h
      split at h
      · cases h
      · next hshown =>
        cases h
        push Not at hshown
        obtain ⟨l, hl, hblank⟩ := hshown
        exact .content l hl (by simpa using hblank)
    · intro h
      cases h with
      | content l hl hshown => rw [if_neg fun hblank => by simp [hblank l hl] at hshown]
  | single => exact ⟨fun h => (by cases h), fun h => (by cases h)⟩
  | keyValue => exact ⟨fun h => (by cases h), fun h => (by cases h)⟩
  | property =>
    rw [← t.property_eq_error_iff heol rank]
    simp only [RawTag.element]
    cases t.property rank eol with
    | error fault' => simp [Except.map]
    | ok p => simp [Except.map]

end Faults

section Reading

variable {v : Vocabulary} {eol : Text}

/-- The vocabulary gives the tag a shape in which it cannot be read. -/
def RawTag.IsMalformed (v : Vocabulary) (eol : Text) (t : RawTag) (fault : TagFault) : Prop :=
  ∃ g, v.get? t.name = some g ∧ Faulty eol t.rest t.continuation g.shape fault

/-- One step: a malformed tag ends the reading. -/
theorem readTags_cons_of_isMalformed (heol : eol.isBlank) {t : RawTag} {fault : TagFault}
    (h : t.IsMalformed v eol fault) (rank : Nat) (ts : List RawTag) :
    readTags v eol rank (t :: ts) = .error ⟨t.line, t.name, fault⟩ := by
  obtain ⟨g, hg, hfaulty⟩ := h
  simp only [readTags, hg, (t.element_eq_error_iff heol).mpr hfaulty]

/-- One step: any other tag leaves it to the tags behind it whether the reading fails. -/
theorem exists_rank_readTags_cons (heol : eol.isBlank) {t : RawTag}
    (h : ∀ fault, ¬ t.IsMalformed v eol fault) (rank : Nat) (ts : List RawTag) :
    ∃ rank', ∀ e,
      readTags v eol rank (t :: ts) = .error e ↔ readTags v eol rank' ts = .error e := by
  cases hg : v.get? t.name with
  | none => exact ⟨rank, fun e => by simp only [readTags, hg]⟩
  | some g =>
    refine ⟨if g.shape = .property then rank + 1 else rank, fun e => ?_⟩
    cases helement : t.element g.shape rank eol with
    | error fault => exact absurd ⟨g, hg, (t.element_eq_error_iff heol).mp helement⟩ (h fault)
    | ok element =>
      simp only [readTags, hg, helement]
      cases readTags v eol (if g.shape = .property then rank + 1 else rank) ts <;>
        simp [Except.map]

/-- Reading several tags fails at the first malformed one. -/
theorem readTags_eq_error_iff (heol : eol.isBlank) {ts : List RawTag} {rank : Nat}
    {e : ParseError} :
    readTags v eol rank ts = .error e ↔ ∃ front t behind, ts = front ++ t :: behind ∧
      (∀ u ∈ front, ∀ fault, ¬ u.IsMalformed v eol fault) ∧ t.IsMalformed v eol e.fault ∧
      e.line = t.line ∧ e.tag = t.name := by
  constructor
  · intro h
    induction ts generalizing rank with
    | nil => cases h
    | cons t ts ih =>
      by_cases ht : ∃ fault, t.IsMalformed v eol fault
      · obtain ⟨fault, ht⟩ := ht
        rw [readTags_cons_of_isMalformed heol ht] at h
        cases h
        exact ⟨[], t, ts, rfl, by simp, ht, rfl, rfl⟩
      · rw [not_exists] at ht
        obtain ⟨rank', hrank⟩ := exists_rank_readTags_cons heol ht rank ts
        obtain ⟨front, u, behind, rfl, hfront, hu⟩ := ih ((hrank e).mp h)
        exact ⟨t :: front, u, behind, rfl, List.forall_mem_cons.mpr ⟨ht, hfront⟩, hu⟩
  · rintro ⟨front, t, behind, rfl, hfront, ht, hline, htag⟩
    induction front generalizing rank with
    | nil =>
      rw [List.nil_append, readTags_cons_of_isMalformed heol ht, ← hline, ← htag]
    | cons u front ih =>
      obtain ⟨hu, hfront⟩ := List.forall_mem_cons.mp hfront
      obtain ⟨rank', hrank⟩ := exists_rank_readTags_cons heol hu rank (front ++ t :: behind)
      exact (hrank e).mpr (ih hfront)

/-- The malformed tags on the lines are those among the tags of the comment. -/
theorem malformedAt_iff {lines : List Text} {k : Nat} {name : Text} {fault : TagFault} :
    MalformedAt v eol lines k name fault ↔
      ∃ t ∈ rawTags lines, t.line = k ∧ t.name = name ∧ t.IsMalformed v eol fault := by
  constructor
  · rintro ⟨rest, continuation, g, hat, hg, hfaulty⟩
    obtain ⟨t, ht, rfl, rfl, rfl, rfl⟩ := hat.exists_rawTag
    exact ⟨t, ht, rfl, rfl, g, hg, hfaulty⟩
  · rintro ⟨t, ht, rfl, rfl, g, hg, hfaulty⟩
    exact ⟨t.rest, t.continuation, g, RawTag.tagAt ht, hg, hfaulty⟩

/-- Reading a comment fails at the first line with a malformed tag. -/
theorem Comment.parse_eq_error_iff (heol : eol.isBlank) (raw : Text) (v : Vocabulary)
    (e : ParseError) :
    Comment.parse raw v eol = .error e ↔
      MalformedAt v eol (Margin.strip raw eol) e.line e.tag e.fault ∧
        ∀ k < e.line, ∀ name fault, ¬ MalformedAt v eol (Margin.strip raw eol) k name fault := by
  have hread : Comment.parse raw v eol = .error e ↔
      readTags v eol 1 (rawTags (Margin.strip raw eol)) = .error e := by
    rw [Comment.parse_eq]
    cases readTags v eol 1 (rawTags (Margin.strip raw eol)) <;> simp [Except.map]
  rw [hread, readTags_eq_error_iff heol]
  have hsorted := pairwise_line_rawTags (Margin.strip raw eol)
  generalize Margin.strip raw eol = lines at hsorted
  constructor
  · rintro ⟨front, t, behind, htags, hfront, ht, hline, htag⟩
    refine ⟨malformedAt_iff.mpr ⟨t, by simp [htags], hline.symm, htag.symm, ht⟩, ?_⟩
    intro k hk name fault hat
    obtain ⟨u, hu, rfl, -, hmalformed⟩ := malformedAt_iff.mp hat
    -- The tags stand in the order of their lines, so one on an earlier line is in front.
    rw [htags, List.pairwise_append, List.pairwise_cons] at hsorted
    rw [htags, List.mem_append, List.mem_cons] at hu
    rcases hu with hu | rfl | hu
    · exact hfront u hu fault hmalformed
    · omega
    · have := hsorted.2.1.1 u hu
      omega
  · rintro ⟨hat, hearlier⟩
    obtain ⟨t, ht, hline, htag, hmalformed⟩ := malformedAt_iff.mp hat
    obtain ⟨front, behind, htags⟩ := List.append_of_mem ht
    refine ⟨front, t, behind, htags, fun u hu fault hu' => ?_, hmalformed, hline.symm, htag.symm⟩
    rw [htags, List.pairwise_append] at hsorted
    have hlt : u.line < t.line := hsorted.2.2 u hu t List.mem_cons_self
    refine hearlier u.line (by omega) u.name fault ?_
    exact malformedAt_iff.mpr ⟨u, by simp [htags, hu], rfl, rfl, hu'⟩

/-- Only leaves and property declarations can be at fault, each in its own way. -/
theorem Faulty.shape_cases {rest : Text} {continuation : List Text} {shape : Shape}
    {fault : TagFault} (h : Faulty eol rest continuation shape fault) :
    (shape = .leaf ∧ fault = .unexpectedContent) ∨
      (shape = .property ∧ ∃ part, fault = .missingSeparator part) := by
  cases h with
  | content => exact .inl ⟨rfl, rfl⟩
  | gluedName => exact .inr ⟨rfl, _, rfl⟩
  | gluedVariable => exact .inr ⟨rfl, _, rfl⟩

/-- Reading a comment fails exactly if a tag is malformed, and then at the first such tag, with its
line, its name and its fault. Only tags that take no content and declarations of properties can be
malformed. -/
theorem Comment.parse_fails_at_first_malformed (raw : Text) (v : Vocabulary)
    (heol : IsLineEnd eol) :
    (∀ e, Comment.parse raw v eol = .error e ↔
      MalformedAt v eol (Margin.strip raw eol) e.line e.tag e.fault ∧
        ∀ k < e.line, ∀ name fault, ¬ MalformedAt v eol (Margin.strip raw eol) k name fault) ∧
    ((∃ e, Comment.parse raw v eol = .error e) ↔
      ∃ k name fault, MalformedAt v eol (Margin.strip raw eol) k name fault) ∧
    ∀ e, Comment.parse raw v eol = .error e → ∃ g, v.get? e.tag = some g ∧
      ((g.shape = .leaf ∧ e.fault = .unexpectedContent) ∨
        (g.shape = .property ∧ ∃ part, e.fault = .missingSeparator part)) := by
  have hfirst := parse_eq_error_iff heol.isBlank raw v
  refine ⟨hfirst, ⟨?_, ?_⟩, fun e he => ?_⟩
  · rintro ⟨e, he⟩
    exact ⟨_, _, _, ((hfirst e).mp he).1⟩
  · rintro ⟨k, name, fault, hat⟩
    induction k using Nat.strong_induction_on generalizing name fault with
    | _ k ih =>
      by_cases hearlier : ∃ j < k, ∃ name fault,
          MalformedAt v eol (Margin.strip raw eol) j name fault
      · obtain ⟨j, hj, name', fault', hat'⟩ := hearlier
        exact ih j hj name' fault' hat'
      · push Not at hearlier
        exact ⟨⟨k, name, fault⟩, (hfirst _).mpr ⟨hat, hearlier⟩⟩
  · obtain ⟨⟨rest, continuation, g, -, hg, hfaulty⟩, -⟩ := (hfirst e).mp he
    exact ⟨g, hg, hfaulty.shape_cases⟩

/-- A comment with two malformed tags behind tags that can be read: on line 5 the variable is glued
to its type, and the tag on line 7 takes no content. -/
def twoFaults : Text :=
  "/**\r\n * Short.\r\n *\r\n * @todo@x\r\n * @author a$b\r\n * @property\r\n".toList ++
    " *   int$a\r\n * @internal yes\r\n */".toList

/-- The tags of that comment; nothing is known of the tag on line 3. -/
def twoFaultsTags : Vocabulary where
  nodup := by decide
  grammars := [{ name := "author", shape := .single }, { name := "internal", shape := .leaf },
    { name := "property", shape := .property }]

/-- The first malformed tag ends the reading, and no line in front of it has one. -/
theorem Comment.parse_fails_twoFaults :
    Comment.parse twoFaults twoFaultsTags "\r\n" =
        .error ⟨5, "property", .missingSeparator .variableName⟩ ∧
      MalformedAt twoFaultsTags "\r\n" (Margin.strip twoFaults "\r\n") 5 "property"
        (.missingSeparator .variableName) ∧
      ∀ k < 5, ∀ name fault,
        ¬ MalformedAt twoFaultsTags "\r\n" (Margin.strip twoFaults "\r\n") k name fault := by
  have hparse : Comment.parse twoFaults twoFaultsTags "\r\n" =
      .error ⟨5, "property", .missingSeparator .variableName⟩ := by decide +kernel
  exact ⟨hparse, ((parse_fails_at_first_malformed _ _ (.inr rfl)).1 _).mp hparse⟩

end Reading

end DocCheck
