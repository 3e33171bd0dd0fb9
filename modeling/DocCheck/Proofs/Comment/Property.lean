import DocCheck.Proofs.Comment.Margin
import DocCheck.Proofs.Comment.Reading

/-!
# The fields of a property declaration

The fields of a declaration, written one after the other with their gaps, are its text up to
white space at the end. Which part is which follows from the words: at most the first two are type
and name. This determines the fields, and it bounds their line ends by the lines of the tag.
-/

namespace DocCheck

open Text

/-- The fields with their gaps, one after the other. -/
def PropertyFields.render (f : PropertyFields) : Text :=
  f.beforeType ++ (f.type ++ (f.beforeName ++ (f.name ++ (f.beforeComment ++ f.comment))))

namespace PropertyFields

/-- Type and name of a declaration with the gaps in front of them. -/
def declaration (f : PropertyFields) : Text := f.beforeType ++ (f.type ++ (f.beforeName ++ f.name))

/-- Type and name are words, each with a gap in front of it. Either may be missing: the name is what
starts with a dollar sign. -/
structure IsDeclared (f : PropertyFields) : Prop where
  beforeType_gap : ∀ c ∈ f.beforeType, isGap c
  beforeName_gap : ∀ c ∈ f.beforeName, isGap c
  type_word : ∀ c ∈ f.type, isSpace c = false
  name_word : ∀ c ∈ f.name, isSpace c = false
  type_not_variable : isVariable f.type = false
  name_variable : f.name ≠ [] → isVariable f.name
  /-- A gap stands in front of the name exactly if there is a type too. -/
  beforeName_iff : f.beforeName ≠ [] ↔ f.type ≠ [] ∧ f.name ≠ []

/-- The fields of a text. The text consists of the type and the name with the gaps in front of them,
of the gap in front of the comment, and of a tail, which is the comment up to white space at its
end. -/
structure Reads (f : PropertyFields) (input tail : Text) : Prop extends f.IsDeclared where
  input_eq : input = f.declaration ++ (f.beforeComment ++ tail)
  comment_eq : f.comment = tail.trimEnd
  beforeComment_gap : ∀ c ∈ f.beforeComment, isGap c
  /-- Behind the last word stands white space. -/
  boundary : ∀ c ∈ (f.beforeComment ++ tail).head?, isSpace c
  tail_head : ∀ c ∈ tail.head?, isGap c = false
  /-- A variable in front of the comment would be the name. -/
  tail_not_variable : f.name = [] → tail.head? ≠ some '$'
  /-- Without type and name there is one gap only, which is in front of the type. -/
  beforeComment_eq_nil : f.type = [] → f.name = [] → f.beforeComment = []

/-- Type and name end visibly. -/
theorem IsDeclared.trimEnd_declaration {f : PropertyFields} (h : f.IsDeclared)
    (hsome : f.type ≠ [] ∨ f.name ≠ []) : f.declaration.trimEnd = f.declaration := by
  have hword {w : Text} (hw : ∀ c ∈ w, isSpace c = false) : w.trimEnd = w :=
    trimEnd_eq_self_iff.mpr fun c hc => hw c (List.mem_of_getLast? hc)
  by_cases hname : f.name = []
  · have hgap : f.beforeName = [] := by
      by_contra hne
      exact (h.beforeName_iff.mp hne).2 hname
    have htype : f.type ≠ [] := hsome.resolve_right fun hne => hne hname
    rw [declaration, hname, hgap, List.append_nil, List.append_nil]
    exact trimEnd_append htype (hword h.type_word)
  · have hsplit : f.declaration = (f.beforeType ++ (f.type ++ f.beforeName)) ++ f.name := by
      simp only [declaration, List.append_assoc]
    rw [hsplit]
    exact trimEnd_append hname (hword h.name_word)

/-- A text is cut at gaps and words, one after the other. -/
theorem ofText_spans {g w m n b z : Text} (hg : ∀ c ∈ g, isGap c)
    (hw : ∀ c ∈ w, isSpace c = false) (hm : ∀ c ∈ m, isGap c) (hn : ∀ c ∈ n, isSpace c = false)
    (hb : ∀ c ∈ b, isGap c) (hg' : ∀ c ∈ (w ++ (m ++ (n ++ (b ++ z)))).head?, isGap c = false)
    (hw' : ∀ c ∈ (m ++ (n ++ (b ++ z))).head?, isSpace c)
    (hm' : ∀ c ∈ (n ++ (b ++ z)).head?, isGap c = false) (hn' : ∀ c ∈ (b ++ z).head?, isSpace c)
    (hb' : ∀ c ∈ z.head?, isGap c = false) :
    ofText (g ++ (w ++ (m ++ (n ++ (b ++ z))))) =
      if isVariable w then
        { beforeType := g, name := w, beforeComment := m, comment := trimEnd (n ++ (b ++ z)) }
      else if isVariable n then
        { beforeType := g, type := w, beforeName := m, name := n, beforeComment := b
          comment := trimEnd z }
      else
        { beforeType := g, type := w, beforeComment := m, comment := trimEnd (n ++ (b ++ z)) } := by
  have hword {t : Text} (ht : ∀ c ∈ t, isSpace c = false) : ∀ c ∈ t, (!isSpace c) = true := by
    simpa using ht
  have hend {t : Text} (ht : ∀ c ∈ t.head?, isSpace c) : ∀ c ∈ t.head?, (!isSpace c) = false := by
    simpa using ht
  simp only [ofText, takeWhile_append_of_head? hg hg', dropWhile_append_of_head? hg hg',
    takeWhile_append_of_head? (hword hw) (hend hw'),
    dropWhile_append_of_head? (hword hw) (hend hw'),
    takeWhile_append_of_head? hm hm', dropWhile_append_of_head? hm hm',
    takeWhile_append_of_head? (hword hn) (hend hn'),
    dropWhile_append_of_head? (hword hn) (hend hn'),
    takeWhile_append_of_head? hb hb', dropWhile_append_of_head? hb hb']

/-- A word that is not empty starts with a character that is in no gap. -/
theorem isGap_head?_append {w : Text} (hne : w ≠ []) (hw : ∀ c ∈ w, isSpace c = false) (t : Text) :
    ∀ c ∈ (w ++ t).head?, isGap c = false := by
  intro c hc
  rw [List.head?_append_of_ne_nil _ hne] at hc
  have hspace := hw c (List.mem_of_head? hc)
  rw [← Bool.not_eq_true]
  intro hgap
  rw [isSpace_of_isGap hgap] at hspace
  cases hspace

/-- A text that starts with white space does not start with a variable. -/
theorem head?_ne_dollar {t : Text} (h : ∀ c ∈ t.head?, isSpace c) : t.head? ≠ some '$' :=
  fun hhead => absurd (h '$' hhead) (by decide)

/-- A variable is recognised by the dollar sign it starts with. -/
theorem isVariable_iff {word : Text} : isVariable word ↔ word.head? = some '$' := beq_iff_eq

/-- A gap is empty if what starts with it does not start with a gap character. -/
theorem eq_nil_of_head?_append {m t : Text} (hm : ∀ c ∈ m, isGap c)
    (h : ∀ c ∈ (m ++ t).head?, isGap c = false) : m = [] := by
  cases m with
  | nil => rfl
  | cons c m =>
    have hc := h c rfl
    rw [hm c List.mem_cons_self] at hc
    cases hc

/-- Every text is read in this way. -/
theorem exists_reads_ofText (input : Text) : ∃ tail, (ofText input).Reads input tail := by
  obtain ⟨g, u, rfl, hg, hu⟩ := exists_span isGap input
  obtain ⟨w, r, rfl, hw, hr⟩ := exists_span (!isSpace ·) u
  obtain ⟨m, x, rfl, hm, hx⟩ := exists_span isGap r
  obtain ⟨n, y, rfl, hn, hy⟩ := exists_span (!isSpace ·) x
  obtain ⟨b, z, rfl, hb, hz⟩ := exists_span isGap y
  simp only [Bool.not_eq_true', Bool.not_eq_false'] at hw hr hn hy
  rw [ofText_spans hg hw hm hn hb hu hr hx hy hz]
  by_cases hfirst : isVariable w
  · rw [if_pos hfirst]
    have hne : w ≠ [] := by
      rintro rfl
      cases hfirst
    exact ⟨n ++ (b ++ z), ⟨hg, by simp, by simp, hw, rfl, fun _ => hfirst, by simp⟩,
      by simp [declaration], rfl, hm, hr, hx, fun h => absurd h hne, fun _ h => absurd h hne⟩
  · rw [if_neg hfirst]
    by_cases hsecond : isVariable n
    · rw [if_pos hsecond]
      have hne : n ≠ [] := by
        rintro rfl
        cases hsecond
      -- White space separates the variable from what precedes it, which must be a type.
      have hgap : m ≠ [] := by
        rintro rfl
        rw [List.nil_append, List.head?_append_of_ne_nil _ hne] at hr
        exact head?_ne_dollar hr (isVariable_iff.mp hsecond)
      have htype : w ≠ [] := by
        rintro rfl
        exact hgap (eq_nil_of_head?_append hm hu)
      exact ⟨z, ⟨hg, hm, hw, hn, by simpa using hfirst, fun _ => hsecond,
        iff_of_true hgap ⟨htype, hne⟩⟩, by simp [declaration], rfl, hb, hy, hz,
        fun h => absurd h hne, fun _ h => absurd h hne⟩
    · rw [if_neg hsecond]
      have htail : (n ++ (b ++ z)).head? ≠ some '$' := by
        by_cases hne : n = []
        · rw [hne, List.nil_append]
          exact head?_ne_dollar hy
        · rw [List.head?_append_of_ne_nil _ hne]
          exact mt isVariable_iff.mpr hsecond
      refine ⟨n ++ (b ++ z), ⟨hg, by simp, hw, by simp, by simpa using hfirst, by simp, by simp⟩,
        by simp [declaration], rfl, hm, hr, hx, fun _ => htail, ?_⟩
      rintro rfl -
      exact eq_nil_of_head?_append hm hu

/-- The fields of a text are the only ones that are read in this way. -/
theorem Reads.ofText_eq {f : PropertyFields} {input tail : Text} (h : f.Reads input tail) :
    ofText input = f := by
  obtain ⟨n, y, htail, hn, hy⟩ := exists_span (!isSpace ·) tail
  obtain ⟨b, z, rfl, hb, hz⟩ := exists_span isGap y
  simp only [Bool.not_eq_true', Bool.not_eq_false'] at hn hy
  have hinput := h.input_eq
  have hboundary := h.boundary
  have hhead := h.tail_head
  have hcomment := h.comment_eq
  have htype := h.type_not_variable
  by_cases hname : f.name = []
  · have hgap : f.beforeName = [] := by
      by_contra hne
      exact (h.beforeName_iff.mp hne).2 hname
    have hsecond : ¬ isVariable n := by
      intro hvariable
      have hne : n ≠ [] := by
        rintro rfl
        cases hvariable
      refine h.tail_not_variable hname ?_
      rw [htail, List.head?_append_of_ne_nil _ hne]
      exact isVariable_iff.mp hvariable
    have hfront : ∀ c ∈ (f.type ++ (f.beforeComment ++ tail)).head?, isGap c = false := by
      by_cases hnil : f.type = []
      · rw [hnil, h.beforeComment_eq_nil hnil hname]
        exact hhead
      · exact isGap_head?_append hnil h.type_word _
    subst htail
    rw [hinput, declaration, hgap, hname, List.append_nil, List.append_nil, List.append_assoc,
      ofText_spans h.beforeType_gap h.type_word h.beforeComment_gap hn hb hfront hboundary hhead hy
        hz, if_neg (by simpa using htype), if_neg hsecond, ← hcomment]
    cases f
    simp_all
  · have hvariable := h.name_variable hname
    by_cases hnil : f.type = []
    · have hgap : f.beforeName = [] := by
        by_contra hne
        exact (h.beforeName_iff.mp hne).1 hnil
      subst htail
      rw [hinput, declaration, hgap, hnil, List.nil_append, List.nil_append, List.append_assoc,
        ofText_spans h.beforeType_gap h.name_word h.beforeComment_gap hn hb
          (isGap_head?_append hname h.name_word _) hboundary hhead hy hz, if_pos hvariable,
        ← hcomment]
      cases f
      simp_all
    · have hgap := h.beforeName_iff.mpr ⟨hnil, hname⟩
      have hspace : ∀ c ∈ (f.beforeName ++ (f.name ++ (f.beforeComment ++ tail))).head?,
          isSpace c := by
        intro c hc
        rw [List.head?_append_of_ne_nil _ hgap] at hc
        exact isSpace_of_isGap (h.beforeName_gap c (List.mem_of_head? hc))
      rw [hinput, declaration]
      simp only [List.append_assoc]
      rw [ofText_spans h.beforeType_gap h.type_word h.beforeName_gap h.name_word
        h.beforeComment_gap (isGap_head?_append hnil h.type_word _) hspace
        (isGap_head?_append hname h.name_word _) hboundary hhead, if_neg (by simpa using htype),
        if_pos hvariable, ← hcomment]

/-- A gap in front of the comment stands behind a type or a name. -/
theorem Reads.type_or_name {f : PropertyFields} {input tail : Text} (h : f.Reads input tail)
    (hne : f.beforeComment ≠ []) : f.type ≠ [] ∨ f.name ≠ [] := by
  by_contra hnone
  push Not at hnone
  exact hne (h.beforeComment_eq_nil hnone.1 hnone.2)

/-- A text that ends visibly goes on behind the gap in front of the comment. -/
theorem Reads.tail_ne_nil {f : PropertyFields} {input tail : Text} (h : f.Reads input tail)
    (htrim : input.trimEnd = input) (hne : f.beforeComment ≠ []) : tail ≠ [] := by
  rintro rfl
  have hsuffix : f.beforeComment <:+ input :=
    ⟨f.declaration, by rw [h.input_eq, List.append_nil]⟩
  have hnil := trimEnd_eq_nil_iff.mpr (isBlank_of_isGap h.beforeComment_gap)
  rw [trimEnd_of_suffix hsuffix htrim] at hnil
  exact hne hnil

/-- The text of a declaration is its fields, up to white space at the end. -/
theorem exists_blank_ofText (input : Text) :
    ∃ blank, input = (ofText input).render ++ blank ∧ blank.isBlank := by
  obtain ⟨tail, h⟩ := exists_reads_ofText input
  obtain ⟨blank, htail, hblank⟩ := exists_blank_of_trimEnd tail
  refine ⟨blank, ?_, hblank⟩
  conv_lhs => rw [h.input_eq, htail, ← h.comment_eq]
  simp only [declaration, render, List.append_assoc]

/-- The gaps of a declaration are made of gap characters. -/
theorem gaps_ofText (input : Text) :
    (∀ c ∈ (ofText input).beforeType, isGap c) ∧ (∀ c ∈ (ofText input).beforeName, isGap c) ∧
      ∀ c ∈ (ofText input).beforeComment, isGap c := by
  obtain ⟨tail, h⟩ := exists_reads_ofText input
  exact ⟨h.beforeType_gap, h.beforeName_gap, h.beforeComment_gap⟩

/-- The words of a declaration hold no white space. -/
theorem words_ofText (input : Text) :
    (∀ c ∈ (ofText input).type, isSpace c = false) ∧
      ∀ c ∈ (ofText input).name, isSpace c = false := by
  obtain ⟨tail, h⟩ := exists_reads_ofText input
  exact ⟨h.type_word, h.name_word⟩

/-- The fields are read from their own text too: the comment starts as the tail does, if it is not
empty, and white space at the end of the tail belongs to no field. -/
theorem Reads.render {f : PropertyFields} {input tail : Text} (h : f.Reads input tail) :
    f.Reads f.render f.comment := by
  have hhead (u : Text) : ∀ c ∈ (u ++ f.comment).head?, c ∈ (u ++ tail).head? := by
    intro c hc
    have hprefix : u ++ f.comment <+: u ++ tail := by
      rw [h.comment_eq, List.prefix_append_right_inj]
      exact trimEnd_isPrefix tail
    obtain ⟨blank, hblank⟩ := hprefix
    obtain ⟨rest, hrest⟩ := List.head?_eq_some_iff.mp hc
    rw [← hblank, hrest]
    rfl
  exact
    { h.toIsDeclared with
      input_eq := by simp only [PropertyFields.render, declaration, List.append_assoc]
      comment_eq := by rw [h.comment_eq, trimEnd_trimEnd]
      beforeComment_gap := h.beforeComment_gap
      boundary := fun c hc => h.boundary c (hhead _ c hc)
      tail_head := fun c hc => h.tail_head c (hhead [] c hc)
      tail_not_variable := fun hname hdollar => h.tail_not_variable hname (hhead [] _ hdollar)
      beforeComment_eq_nil := h.beforeComment_eq_nil }

/-- The text of a declaration is cut without loss. Its fields with their gaps, one after the other,
are the text up to white space at the end; the gaps are spaces, tabs and line ends, type and name
hold no white space, of the two only the name starts with a dollar sign, and the comment does not
end in white space. Read again, the fields give themselves. -/
theorem ofText_lossless (input : Text) :
    (∃ blank, input = (ofText input).render ++ blank ∧ ∀ c ∈ blank, isSpace c) ∧
    (∀ gap ∈ [(ofText input).beforeType, (ofText input).beforeName, (ofText input).beforeComment],
      ∀ c ∈ gap, c = ' ' ∨ c = '\t' ∨ c = '\r' ∨ c = '\n') ∧
    (∀ word ∈ [(ofText input).type, (ofText input).name], ∀ c ∈ word, isSpace c = false) ∧
    (ofText input).type.head? ≠ some '$' ∧
    ((ofText input).name = [] ∨ (ofText input).name.head? = some '$') ∧
    (∀ c ∈ (ofText input).comment.getLast?, isSpace c = false) ∧
    ofText (ofText input).render = ofText input := by
  obtain ⟨tail, h⟩ := exists_reads_ofText input
  obtain ⟨blank, hinput, hblank⟩ := exists_blank_ofText input
  refine ⟨⟨blank, hinput, List.all_eq_true.mp hblank⟩, ?_, ?_, ?_, ?_, ?_, h.render.ofText_eq⟩
  · have hgap {gap : Text} (hgap : ∀ c ∈ gap, isGap c) :
        ∀ c ∈ gap, c = ' ' ∨ c = '\t' ∨ c = '\r' ∨ c = '\n' := by
      simpa [isGap, or_assoc] using hgap
    simpa using ⟨hgap h.beforeType_gap, hgap h.beforeName_gap, hgap h.beforeComment_gap⟩
  · simpa using ⟨h.type_word, h.name_word⟩
  · intro hdollar
    have hvariable := h.type_not_variable
    rw [isVariable_iff.mpr hdollar] at hvariable
    cases hvariable
  · rw [← isVariable_iff]
    exact or_iff_not_imp_left.mpr h.name_variable
  · rw [h.comment_eq]
    exact trimEnd_eq_self_iff.mp (trimEnd_trimEnd tail)

end PropertyFields

/-- A declaration that was read has the fields of its text and the line of its tag. -/
theorem RawTag.property_eq_ok {t : RawTag} {rank : Nat} {eol : Text} {p : Property}
    (h : t.property rank eol = .ok p) :
    p = { PropertyFields.ofText (t.exactText eol) with
      tag := t.name, above := t.above eol, rank, line := t.line } := by
  unfold RawTag.property at h
  dsimp only at h
  split at h
  · cases h
  · split at h
    · cases h
    · cases h
      rfl

/-- Only tags of properties are read as declarations. -/
theorem RawTag.property_of_element {t : RawTag} {shape : Shape} {rank : Nat} {eol : Text}
    {p : Property} (h : t.element shape rank eol = .ok (.property p)) :
    shape = .property ∧ t.property rank eol = .ok p := by
  cases shape with
  | leaf =>
    simp only [RawTag.element] at h
    split at h <;> cases h
  | single => cases h
  | keyValue => cases h
  | property =>
    simp only [RawTag.element] at h
    cases hp : t.property rank eol with
    | error fault =>
      rw [hp] at h
      cases h
    | ok q =>
      rw [hp] at h
      cases h
      exact ⟨rfl, rfl⟩

section Comment

variable {raw eol : Text} {v : Vocabulary} {c : Comment}

/-- Every declaration of a comment was read from a tag of the comment. -/
theorem exists_rawTag_of_mem_properties (hparse : Comment.parse raw v eol = .ok c) {p : Property}
    (hp : p ∈ c.properties) :
    ∃ t ∈ rawTags (Margin.strip raw eol), ∃ g rank, v.get? t.name = some g ∧
      g.shape = .property ∧ t.property rank eol = .ok p := by
  obtain ⟨tags, htags, rfl⟩ := Comment.exists_tags_of_parse hparse
  obtain ⟨o, ho, hop⟩ := List.mem_filterMap.mp hp
  obtain ⟨t, ht, g, rank, element, hg, helement, rfl⟩ := exists_rawTag_of_mem htags ho
  refine ⟨t, ht, g, rank, hg, ?_⟩
  dsimp only at hop
  split at hop
  · cases hop
    exact RawTag.property_of_element helement
  · cases hop

/-- Every tag of a property was read as a declaration of the comment. -/
theorem exists_property_of_mem_rawTags (hparse : Comment.parse raw v eol = .ok c) {t : RawTag}
    {g : Grammar} (ht : t ∈ rawTags (Margin.strip raw eol)) (hg : v.get? t.name = some g)
    (hshape : g.shape = .property) : ∃ p ∈ c.properties, ∃ rank, t.property rank eol = .ok p := by
  obtain ⟨tags, htags, rfl⟩ := Comment.exists_tags_of_parse hparse
  obtain ⟨o, ho, g', rank, element, hg', helement, rfl⟩ :=
    exists_occurrence_of_mem htags ht (by rw [hg]; rfl)
  obtain rfl : g = g' := Option.some.inj (hg.symm.trans hg')
  rw [hshape, RawTag.element] at helement
  cases hp : t.property rank eol with
  | error fault =>
    rw [hp] at helement
    cases helement
  | ok p =>
    rw [hp] at helement
    cases helement
    exact ⟨p, List.mem_filterMap.mpr ⟨_, ho, rfl⟩, rank, hp⟩

end Comment

/-- The lines of a tag are lines of the comment. -/
theorem RawTag.line_add_length_lt {lines : List Text} {t : RawTag} (ht : t ∈ rawTags lines) :
    t.line + t.continuation.length < lines.length := by
  obtain ⟨front, l, behind, rfl, hline, -, hcont⟩ := exists_line_of_mem_rawTags ht
  have hle := hcont.length_le
  simp only [List.length_append, List.length_cons, hline]
  omega

/-- The lines of a tag are ends of lines of the comment. -/
theorem RawTag.exists_suffix_of_mem {lines : List Text} {t : RawTag} (ht : t ∈ rawTags lines)
    {u : Text} (hu : u ∈ t.rest :: t.continuation) : ∃ l ∈ lines, u <:+ l := by
  obtain ⟨front, l, behind, rfl, -, hheader, hcont⟩ := exists_line_of_mem_rawTags ht
  rcases List.mem_cons.mp hu with rfl | hu
  · obtain ⟨margin, hl, -, -⟩ := exists_margin_of_header? hheader
    exact ⟨l, by simp, margin ++ '@' :: t.name, by simp [hl]⟩
  · exact ⟨u, by simp [hcont.subset hu], List.suffix_rfl⟩

section Stripped

variable {eol : Text}

/-- The lines of a tag are stripped. -/
theorem RawTag.isStripped_of_mem {raw : Text} (heol : eol ≠ []) {t : RawTag}
    (ht : t ∈ rawTags (Margin.strip raw eol)) {u : Text} (hu : u ∈ t.rest :: t.continuation) :
    IsStripped eol u := by
  obtain ⟨l, hl, hsuffix⟩ := exists_suffix_of_mem ht hu
  exact (Margin.isStripped_of_mem_strip heol hl).of_suffix hsuffix

/-- The text of a tag is that of its lines up to the last one with text. -/
theorem RawTag.exactText_eq {t : RawTag} (hrest : IsStripped eol t.rest) :
    t.exactText eol = join eol ((t.rest :: t.continuation).rdropWhile isBlank) := by
  have hexact : t.exactText eol = join eol (t.rest :: t.continuation.rdropWhile isBlank) := rfl
  rw [hexact]
  by_cases hall : ∀ l ∈ t.rest :: t.continuation, l.isBlank
  · obtain ⟨hblank, hcont⟩ := List.forall_mem_cons.mp hall
    rw [List.rdropWhile_eq_nil_iff.mpr hall, List.rdropWhile_eq_nil_iff.mpr hcont, join_singleton,
      hrest.eq_nil hblank, join_nil]
  · push Not at hall
    obtain ⟨l, hl, hshown⟩ := hall
    have hshown : l.isBlank = false := by simpa using hshown
    obtain ⟨front, behind, hsplit⟩ := List.append_of_mem hl
    rw [hsplit, rdropWhile_append_cons hshown]
    cases front with
    | nil =>
      obtain ⟨rfl, rfl⟩ := List.cons_eq_cons.mp hsplit
      rfl
    | cons rest front =>
      obtain ⟨hhead, hcont⟩ := List.cons_eq_cons.mp hsplit
      rw [hhead, hcont, List.append_eq, rdropWhile_append_cons hshown, List.cons_append]

/-- Stripped lines that are joined have no space at the end. -/
theorem RawTag.trimEnd_exactText (heol : eol.isBlank) {t : RawTag}
    (h : ∀ l ∈ t.rest :: t.continuation, IsStripped eol l) :
    (t.exactText eol).trimEnd = t.exactText eol := by
  rw [exactText_eq (h _ List.mem_cons_self), ← trimEnd_join heol fun l hl => (h l hl).1,
    trimEnd_trimEnd]

end Stripped

/-- The text of a tag has at most as many line ends as the tag has continuation lines. -/
theorem RawTag.count_exactText_le {lines : List Text} {eol : Text} (heol : HeadUnique eol)
    (hlines : ∀ l ∈ lines, ¬ eol <:+: l) {t : RawTag} (ht : t ∈ rawTags lines) :
    (t.exactText eol).count eol ≤ t.continuation.length := by
  have hsublist := List.dropWhile_sublist isBlank (l := t.continuation.reverse)
  have hparts : ∀ u ∈ t.rest :: (t.continuation.reverse.dropWhile isBlank).reverse,
      ¬ eol <:+: u := by
    intro u hu hpart
    have hmem : u ∈ t.rest :: t.continuation := by
      rcases List.mem_cons.mp hu with rfl | hu
      · exact List.mem_cons_self
      · exact List.mem_cons_of_mem _
          (List.mem_reverse.mp (hsublist.subset (List.mem_reverse.mp hu)))
    obtain ⟨l, hl, hsuffix⟩ := exists_suffix_of_mem ht hmem
    exact hlines l hl (hpart.trans hsuffix.isInfix)
  rw [exactText, count_join heol (List.cons_ne_nil _ _) hparts, List.length_cons,
    List.length_reverse]
  have hle := hsublist.length_le
  rw [List.length_reverse] at hle
  omega

/-- The lines down to the end of the comment of a declaration are lines of the block. -/
theorem Property.line_add_count_lt {raw eol : Text} {v : Vocabulary} {c : Comment}
    (heol : HeadUnique eol) (hparse : Comment.parse raw v eol = .ok c) {p : Property}
    (hp : p ∈ c.properties) :
    p.line + p.beforeComment.count eol + p.comment.count eol <
      (Margin.strip raw eol).length := by
  obtain ⟨t, ht, -, rank, -, -, htp⟩ := exists_rawTag_of_mem_properties hparse hp
  have hline := RawTag.line_add_length_lt ht
  have hcount := RawTag.count_exactText_le heol
    (fun l hl => Margin.not_infix_of_mem_strip heol.ne_nil hl) ht
  obtain ⟨blank, htext, -⟩ := PropertyFields.exists_blank_ofText (t.exactText eol)
  rw [RawTag.property_eq_ok htp]
  generalize PropertyFields.ofText (t.exactText eol) = f at htext
  -- The two fields stand side by side in the text, so their line ends add up to some of its own.
  have hsplit : t.exactText eol =
      f.beforeType ++ (f.type ++ (f.beforeName ++ f.name)) ++
        (f.beforeComment ++ (f.comment ++ blank)) := by
    rw [htext, PropertyFields.render]
    simp only [List.append_assoc]
  have h1 := count_add_le heol (f.beforeType ++ (f.type ++ (f.beforeName ++ f.name)))
    (f.beforeComment ++ (f.comment ++ blank))
  have h2 := count_add_le heol f.beforeComment (f.comment ++ blank)
  have h3 := count_add_le heol f.comment blank
  rw [← hsplit] at h1
  dsimp only
  omega

end DocCheck
