import DocCheck.Proofs.Comment.TagList
import DocCheck.Rule.Layout
import Mathlib.Data.List.DropRight

/-!
# Blank lines around the descriptions

Reading keeps four numbers about the blank lines of a description, each counted by a scan of its
own and two of them as numbers of line ends. What is reported from them can be told from the lines
themselves: from the blank lines in front of the first paragraph, between the first two paragraphs,
and behind the last one.
-/

namespace DocCheck

open Text

/-- The lines of a description: those in front of the first header, without a blank line 0 and,
where no header follows, without a blank last line. -/
def descriptionLines (lines : List Text) : List Text :=
  let front := lines.takeWhile (!isHeader ·)
  let front :=
    if !lines.any isHeader && 1 < lines.length && lines.getLast?.any isBlank then front.dropLast
    else front
  if lines.head?.any isBlank then front.drop 1 else front

/-- The paragraphs of lines of which the first has number `line`: the first line of each and the
line behind it. -/
def paragraphs (line : Nat) : List Text → List (Nat × Nat)
  | [] => []
  | l :: ls =>
    if l.isBlank then paragraphs (line + 1) ls
    else
      match paragraphs (line + 1) ls with
      | [] => [(line, line + 1)]
      | (first, behind) :: further =>
        if first = line + 1 then (line, behind) :: further
        else (line, line + 1) :: (first, behind) :: further

/-- The issues with the blank lines of a comment with the given lines. -/
def spacingIssues (lines : List Text) (s : Scope) : List Issue :=
  let body := descriptionLines lines
  let leading := (body.takeWhile isBlank).length
  let trailing := (body.rtakeWhile isBlank).length
  (if body.any (!·.isBlank) && 1 ≤ leading then
    [s.at 1 (.extraNewlinesBeforeShort s.owner leading)] else []) ++
  (match paragraphs (if lines.head?.any isBlank then 1 else 0) body with
    | (_, behind) :: (next, _) :: _ =>
      if next - behind = 1 then [] else [s.at behind (.blankLineBetweenDescriptions s.owner)]
    | _ => []) ++
  (match (headers lines).head? with
    | some (line, _) => if trailing = 1 then [] else [s.at line (.blankLineBeforeTags s.owner)]
    | none => [])

/-- A blank last line is cut off only where no header stands in front of it. -/
theorem takeWhile_furtherContent (ls : List Text) :
    (furtherContent ls).takeWhile (!isHeader ·) =
      if !ls.any isHeader && ls.getLast?.any isBlank then (ls.takeWhile (!isHeader ·)).dropLast
      else ls.takeWhile (!isHeader ·) := by
  unfold furtherContent
  by_cases hlast : ls.getLast?.any isBlank
  · obtain ⟨last, hsome, hblank⟩ := (Option.any_eq_true _ _).mp hlast
    obtain ⟨front, rfl⟩ := List.getLast?_eq_some_iff.mp hsome
    have hheader : isHeader last = false := isHeader_of_isBlank hblank
    rw [if_pos hlast, hlast, List.dropLast_concat, Bool.and_true, List.any_append]
    by_cases hany : front.any isHeader
    · obtain ⟨l, hl, hlheader⟩ := List.any_eq_true.mp hany
      rw [hany, Bool.true_or, Bool.not_true, if_neg Bool.false_ne_true,
        takeWhile_append_of_exists ⟨l, hl, by rw [hlheader]; rfl⟩]
    · have hfront : ∀ l ∈ front, (!isHeader l) = true := by simpa using hany
      have hall : ∀ l ∈ front ++ [last], (!isHeader l) = true :=
        List.forall_mem_append.mpr ⟨hfront, by simpa using hheader⟩
      rw [if_pos (by simpa [hheader] using hany), List.takeWhile_eq_self_iff.mpr hall,
        List.takeWhile_eq_self_iff.mpr hfront, List.dropLast_concat]
  · rw [if_neg hlast, if_neg (by simp [hlast])]

/-- Reading finds the lines of the description. -/
theorem bodyLines_eq_descriptionLines (lines : List Text) :
    bodyLines lines = descriptionLines lines := by
  cases lines with
  | nil => rfl
  | cons l ls =>
    rw [bodyLines, contentLines_cons, descriptionLines]
    cases ls with
    | nil =>
      cases hl : l.isBlank <;> cases hheader : isHeader l <;> simp [hl, hheader, furtherContent]
    | cons m ms =>
      have hlong : decide (1 < (l :: m :: ms).length) = true := by simp
      have hany : (l :: m :: ms).any isHeader = (isHeader l || (m :: ms).any isHeader) := rfl
      have hfront (hl : isHeader l = false) : (l :: m :: ms).takeWhile (!isHeader ·) =
          l :: (m :: ms).takeWhile (!isHeader ·) := List.takeWhile_cons_of_pos (by simp [hl])
      rw [hlong, hany, Bool.and_true, List.getLast?_cons_cons, List.head?_cons, Option.any_some]
      cases hl : l.isBlank with
      | true =>
        have hheader := isHeader_of_isBlank hl
        rw [hfront hheader, hheader, Bool.false_or, if_pos rfl, List.nil_append,
          takeWhile_furtherContent, if_pos rfl, List.drop_one]
        split
        · rw [List.tail_dropLast, List.tail_cons]
        · rfl
      | false =>
        rw [if_neg Bool.false_ne_true, List.singleton_append, if_neg Bool.false_ne_true]
        cases hheader : isHeader l with
        | true =>
          have hnone (ls : List Text) : (l :: ls).takeWhile (!isHeader ·) = [] :=
            List.takeWhile_cons_of_neg (by simp [hheader])
          rw [hnone, hnone, List.dropLast_nil, ite_self]
        | false =>
          rw [hfront hheader, List.takeWhile_cons_of_pos (by simp [hheader]),
            takeWhile_furtherContent, Bool.false_or]
          split
          · next hcut =>
            -- Where the last line is cut off there is no header, so it is not the first line.
            have hm : (m :: ms).takeWhile (!isHeader ·) ≠ [] := by simp_all
            rw [List.dropLast_cons_of_ne_nil hm]
          · rfl

section Paragraphs

/-- A line with text starts the first paragraph. -/
theorem exists_paragraphs_cons {l : Text} (hl : l.isBlank = false) (line : Nat) (ls : List Text) :
    ∃ behind further, paragraphs line (l :: ls) = (line, behind) :: further := by
  rw [paragraphs, hl, if_neg Bool.false_ne_true]
  split
  · exact ⟨_, _, rfl⟩
  · split <;> exact ⟨_, _, rfl⟩

/-- The first paragraph starts at one of the lines. -/
theorem le_of_head?_paragraphs {line : Nat} {ls : List Text} :
    ∀ p ∈ (paragraphs line ls).head?, line ≤ p.1 := by
  induction ls generalizing line with
  | nil => exact fun p hp => by cases hp
  | cons l ls ih =>
    intro p hp
    cases hl : l.isBlank with
    | true =>
      rw [paragraphs, if_pos hl] at hp
      have := ih p hp
      omega
    | false =>
      obtain ⟨behind, further, hcons⟩ := exists_paragraphs_cons hl line ls
      rw [hcons] at hp
      cases hp
      exact Nat.le_refl line

/-- Blank lines in front move the paragraphs. -/
theorem paragraphs_append_of_isBlank {blanks : List Text} (hblanks : ∀ l ∈ blanks, l.isBlank)
    (line : Nat) (ls : List Text) :
    paragraphs line (blanks ++ ls) = paragraphs (line + blanks.length) ls := by
  induction blanks generalizing line with
  | nil => rfl
  | cons b blanks ih =>
    rw [List.cons_append, paragraphs, if_pos (hblanks b List.mem_cons_self),
      ih fun l hl => hblanks l (List.mem_cons_of_mem _ hl), List.length_cons, Nat.add_right_comm,
      Nat.add_assoc]

/-- No paragraph starts at a blank line. -/
theorem head?_paragraphs_ne {ls : List Text} (hls : ∀ l ∈ ls.head?, l.isBlank) (line : Nat) :
    ∀ p ∈ (paragraphs line ls).head?, p.1 ≠ line := by
  intro p hp
  cases ls with
  | nil => cases hp
  | cons l ls =>
    rw [paragraphs, if_pos (hls l rfl)] at hp
    have := le_of_head?_paragraphs p hp
    omega

/-- Lines with text in front of a blank line or the end are the first paragraph. -/
theorem paragraphs_append_of_text {text ls : List Text} (hne : text ≠ [])
    (htext : ∀ l ∈ text, l.isBlank = false) (hls : ∀ l ∈ ls.head?, l.isBlank) (line : Nat) :
    paragraphs line (text ++ ls) =
      (line, line + text.length) :: paragraphs (line + text.length) ls := by
  induction text generalizing line with
  | nil => exact absurd rfl hne
  | cons l text ih =>
    have hl := htext l List.mem_cons_self
    rw [List.cons_append, paragraphs, hl, if_neg Bool.false_ne_true]
    by_cases hnil : text = []
    · subst hnil
      have hfirst := head?_paragraphs_ne hls (line + 1)
      rw [List.nil_append, List.length_singleton]
      cases hfurther : paragraphs (line + 1) ls with
      | nil => rfl
      | cons p further =>
        rw [hfurther] at hfirst
        dsimp only
        rw [if_neg (hfirst p rfl)]
    · rw [ih hnil (fun m hm => htext m (List.mem_cons_of_mem _ hm))]
      dsimp only
      rw [if_pos rfl, List.length_cons, Nat.add_right_comm, Nat.add_assoc]

variable {leading short gap long trailing : List Text}

/-- The first two paragraphs of a description. -/
theorem Paragraphs.paragraphs_eq (h : Paragraphs leading short gap long trailing) (line : Nat) :
    ∃ further,
      paragraphs line (leading ++ (short ++ (gap ++ (long ++ trailing)))) =
        (line + leading.length, line + leading.length + short.length) :: further ∧
      (long = [] → further = []) ∧
      (long ≠ [] → ∃ behind others,
        further = (line + leading.length + short.length + gap.length, behind) :: others) := by
  rw [paragraphs_append_of_isBlank h.leading_blank,
    paragraphs_append_of_text h.short_ne_nil h.short_text h.head?_behind_short]
  refine ⟨_, rfl, fun hlong => ?_, fun hlong => ?_⟩
  · rw [h.gap_eq_nil_iff.mpr hlong, hlong, List.nil_append, List.nil_append,
      ← List.append_nil trailing, paragraphs_append_of_isBlank h.trailing_blank, paragraphs]
  · obtain ⟨l, ls, rfl⟩ := List.exists_cons_of_ne_nil hlong
    rw [paragraphs_append_of_isBlank h.gap_blank]
    exact exists_paragraphs_cons (h.long_first l rfl) _ _

end Paragraphs

section Description

variable {leading short gap long trailing : List Text}

/-- The first paragraph is read as some text. -/
theorem Paragraphs.join_short_ne_nil (h : Paragraphs leading short gap long trailing) (eol : Text) :
    join eol (short.map trim) ≠ [] := by
  obtain ⟨l, ls, rfl⟩ := List.exists_cons_of_ne_nil h.short_ne_nil
  intro hnil
  have hblank := trim_eq_nil_iff.mp (eq_nil_of_join_cons_eq_nil hnil)
  rw [h.short_text l List.mem_cons_self] at hblank
  cases hblank

/-- A line that is not blank holds more than a space. -/
theorem dropSpace_ne_nil {l : Text} (h : l.isBlank = false) : dropSpace l ≠ [] := by
  unfold dropSpace
  split
  · rintro rfl
    cases h
  · rintro rfl
    cases h

/-- The long text is empty exactly if no lines follow the first paragraph. -/
theorem Paragraphs.join_long_eq_nil_iff (h : Paragraphs leading short gap long trailing)
    (eol : Text) : join eol (long.map dropSpace) = [] ↔ long = [] := by
  cases long with
  | nil => simp
  | cons l ls =>
    refine iff_of_false (fun hnil => ?_) (List.cons_ne_nil l ls)
    exact dropSpace_ne_nil (h.long_first l rfl) (eq_nil_of_join_cons_eq_nil hnil)

/-- The blank lines at the end of the description are counted, and the line end in front of them. -/
theorem breaksAfter_readDescription (body : List Text) (start : Nat) (eol : Text) :
    (readDescription body start eol).breaksAfter = (body.rtakeWhile isBlank).length + 1 := by
  rw [List.rtakeWhile, List.length_reverse]
  unfold readDescription
  dsimp only
  split <;> rfl

end Description

namespace Comment

variable {s : Scope} {eol : Text}

/-- The blank lines in front of the short text are reported as the lines of the description
dictate. -/
theorem leadingIssues_readDescription (body : List Text) (start : Nat) (eol : Text)
    (issue : Nat → Issue) :
    let c := readDescription body start eol
    (if !c.short.isEmpty && 0 < c.blanksBefore then [issue c.blanksBefore] else []) =
      if body.any (!·.isBlank) && 1 ≤ (body.takeWhile isBlank).length then
        [issue (body.takeWhile isBlank).length]
      else [] := by
  intro c
  by_cases htext : ∃ l ∈ body, l.isBlank = false
  · have hany : body.any (!·.isBlank) = true := by simpa using htext
    obtain ⟨leading, short, gap, long, trailing, h, rfl⟩ := Paragraphs.exists_of_text htext
    have hshort : c.short.isEmpty = false := by
      simpa [c, h.readDescription_eq] using h.join_short_ne_nil eol
    have hblanks : c.blanksBefore = leading.length := by simp only [c, h.readDescription_eq]
    rw [hany, hshort, hblanks, takeWhile_append_of_head? h.leading_blank h.head?_text]
    rfl
  · have hblank : ∀ l ∈ body, l.isBlank := by simpa using htext
    have hany : body.any (!·.isBlank) = false := by simpa using hblank
    have hshort : c.short = [] :=
      ((readDescription_eq_nil_iff body start eol).mpr hblank).1
    rw [hany, hshort]
    rfl

/-- The blank lines between the texts are reported as the paragraphs of the description dictate. -/
theorem gapIssues_readDescription {eol : Text} (heol : eol ≠ []) (body : List Text) (start : Nat)
    (issue : Nat → Issue) :
    let c := readDescription body start eol
    (if c.hasLong && c.between.count eol ≠ 2 then [issue (c.shortEnd + 1)] else []) =
      match paragraphs start body with
      | (_, behind) :: (next, _) :: _ => if next - behind = 1 then [] else [issue behind]
      | _ => [] := by
  intro c
  by_cases htext : ∃ l ∈ body, l.isBlank = false
  · obtain ⟨leading, short, gap, long, trailing, h, rfl⟩ := Paragraphs.exists_of_text htext
    obtain ⟨further, hparagraphs, hnone, hsome⟩ := h.paragraphs_eq start
    rw [hparagraphs]
    by_cases hlong : long = []
    · have hhasLong : c.hasLong = false := by simp [c, hasLong, h.readDescription_eq, hlong]
      rw [hhasLong, hnone hlong]
      rfl
    · have hhasLong : c.hasLong = true := by
        simpa [c, hasLong, h.readDescription_eq, h.join_long_eq_nil_iff] using hlong
      have hcount : c.between.count eol = gap.length + 1 := by
        simp only [c, h.readDescription_eq, List.isEmpty_eq_false_iff.mpr hlong, Bool.false_eq_true,
          if_false, count_times heol]
      have hend : c.shortEnd + 1 = start + leading.length + short.length := by
        have := List.length_pos_of_ne_nil h.short_ne_nil
        simp only [c, h.readDescription_eq]
        omega
      obtain ⟨behind, others, rfl⟩ := hsome hlong
      rw [hhasLong, hcount, hend, Bool.true_and]
      by_cases hone : gap.length = 1
      · simp [hone]
      · simp [hone]
  · have hblank : ∀ l ∈ body, l.isBlank := by simpa using htext
    have hlong : c.long = [] := ((readDescription_eq_nil_iff body start eol).mpr hblank).2
    have hparagraphs := paragraphs_append_of_isBlank hblank start []
    rw [List.append_nil, paragraphs] at hparagraphs
    rw [hparagraphs, hasLong, hlong]
    rfl

/-- Blank lines are reported exactly as the lines of the comment dictate. -/
theorem checkSpacing_eq_spacingIssues {raw eol : Text} {v : Vocabulary} {c : Comment} {s : Scope}
    (heol : eol.IsLineEnd) (h : Comment.parse raw v eol = .ok c) (hs : s.eol = eol) :
    c.checkSpacing s = spacingIssues (Margin.strip raw eol) s := by
  have hne := heol.headUnique.ne_nil
  have horder := order_of_parse h
  obtain ⟨tags, -, rfl⟩ := Comment.exists_tags_of_parse h
  generalize Margin.strip raw eol = lines at *
  have hlead := leadingIssues_readDescription (bodyLines lines) (contentStart lines) eol
    fun count => s.at 1 (.extraNewlinesBeforeShort s.owner count)
  have hgap := gapIssues_readDescription hne (bodyLines lines) (contentStart lines)
    fun line => s.at line (.blankLineBetweenDescriptions s.owner)
  have hbreaks : (assemble v eol lines tags).breaksAfter =
      ((bodyLines lines).rtakeWhile isBlank).length + 1 := breaksAfter_readDescription _ _ eol
  have hfirst : (assemble v eol lines tags).firstTag = (headers lines).head?.map (·.1) :=
    (head?_headers lines).symm
  rw [checkSpacing, spacingIssues, ← bodyLines_eq_descriptionLines, horder, hfirst, hs, hbreaks]
  refine congrArg₂ _ (congrArg₂ _ hlead hgap) ?_
  cases headers lines with
  | nil => rfl
  | cons first others =>
    by_cases hone : ((bodyLines lines).rtakeWhile isBlank).length = 1 <;> simp [hone]

/-- A short text behind two blank lines, two blank lines between the texts, and no blank line in
front of the tag. -/
def crampedComment : Text :=
  "/**\r\n *\r\n *\r\n * Short\r\n * text.\r\n *\r\n *\r\n * Long.\r\n * @package A\r\n */"

/-- All three kinds of issues, at line 1, at the line behind the short text and at the tag. -/
theorem checkSpacing_crampedComment :
    ∃ c, Comment.parse crampedComment .fileComment "\r\n" = .ok c ∧
      c.checkSpacing ⟨.file, 10, 19, "\r\n", []⟩ =
        [⟨11, .extraNewlinesBeforeShort .file 2⟩, ⟨15, .blankLineBetweenDescriptions .file⟩,
          ⟨18, .blankLineBeforeTags .file⟩] := by
  have hparse : Comment.parse crampedComment .fileComment "\r\n" = .ok {
      short := "Short\r\ntext.", long := "Long.", between := "\r\n\r\n\r\n", breaksAfter := 1
      blanksBefore := 2, shortEnd := 4, firstTag := some 8
      tags := [⟨"package", "package", 8, "\r\n", .single "A"⟩]
      order := ["comment", "package"] } := by decide +kernel
  refine ⟨_, hparse, ?_⟩
  rw [checkSpacing_eq_spacingIssues (.inr rfl) hparse rfl]
  decide +kernel

end Comment

end DocCheck
