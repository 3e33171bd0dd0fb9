import DocCheck.Proofs.Comment.TagList
import DocCheck.Proofs.Text.Words
import DocCheck.Rule.Content

/-!
# Keys and values

A tag of two parts holds a value, which is its first word, and a comment, which is the rest. The
words may be wrapped over the lines of the tag in any way, with blank lines between them, and the
first one may stand below the header. The rule for licenses, which wants both parts, therefore
counts words.
-/

namespace DocCheck

open Text

/-- The value and the comment that the lines of a tag hold. -/
structure IsKeyValue (eol : Text) (lines : List Text) (value comment : Text) : Prop where
  /-- The value is the first word of the lines taken together; the comment is what stands behind it,
  without white space at its ends and with every line trimmed. -/
  split : ∃ behind, FirstWord (join eol lines) value behind ∧ comment = behind.trim.trimLines eol
  /-- No word gets lost, wherever the lines break. -/
  words_eq : words value ++ words comment = lines.flatMap words
  value_eq_nil_iff : value = [] ↔ ∀ l ∈ lines, l.isBlank
  comment_eq_nil_iff : comment = [] ↔ (lines.flatMap words).length ≤ 1

section Splitting

variable {eol : Text}

/-- The first word of a text is split off, whether or not lines were trimmed before. -/
theorem splitKeyValue_trimLines (heol : eol.IsLineEnd) {t word behind : Text}
    (h : FirstWord t word behind) :
    splitKeyValue (t.trimLines eol).trim = (word, behind.trim.trimLines eol) := by
  have hne := heol.headUnique.ne_nil
  rw [splitKeyValue, trim_trim, trim_trimLines heol]
  by_cases hnil : word = []
  · rw [trim_eq_nil_iff.mpr (h.word_eq_nil_iff.mp hnil), h.behind_eq_nil hnil, hnil,
      show trim [] = [] from rfl, trimLines_nil hne]
    rfl
  · obtain ⟨lead, rfl, hlead⟩ := h.lead
    have hhead : ∀ c ∈ behind.trimEnd.head?, isSpace c := by
      intro c hc
      obtain ⟨rest, hrest⟩ := trimEnd_isPrefix behind
      refine h.behind_head c ?_
      rw [← hrest, List.head?_append, Option.mem_def.mp hc]
      rfl
    obtain ⟨further, hlines, hspace, htrim⟩ :=
      exists_trimLines_word_append heol hnil h.word_visible hhead
    have hword : ∀ c ∈ word, (!isSpace c) = true := fun c hc => by simp [h.word_visible c hc]
    have hfurther : ∀ c ∈ further.head?, (!isSpace c) = false := fun c hc => by simp [hspace c hc]
    rw [trim_append_of_isBlank hlead, trim_word_append hnil h.word_visible, hlines,
      takeWhile_append_of_head? hword hfurther, dropWhile_append_of_head? hword hfurther, htrim,
      trim_trimLines heol, trim_trimEnd]

/-- Lines are trimmed and joined, and the first word of the result is split off. -/
theorem isKeyValue_splitKeyValue (heol : eol.IsLineEnd) {lines : List Text} (hne : lines ≠ [])
    (hlines : ∀ l ∈ lines, ¬ eol <:+: l) :
    IsKeyValue eol lines (splitKeyValue (join eol (lines.map trim)).trim).1
      (splitKeyValue (join eol (lines.map trim)).trim).2 := by
  have htrim : join eol (lines.map trim) = (join eol lines).trimLines eol := by
    rw [trimLines, splitOn_join heol.headUnique hne hlines]
  have hwords : words (join eol lines) = lines.flatMap words :=
    words_join heol.headUnique.ne_nil heol.isBlank lines
  obtain ⟨word, behind, h⟩ := exists_firstWord (join eol lines)
  rw [htrim, splitKeyValue_trimLines heol h]
  refine ⟨⟨behind, h, rfl⟩, ?_, ?_, ?_⟩
  · rw [words_trimLines heol, words_trim, h.words_append, hwords]
  · rw [h.word_eq_nil_iff, ← words_eq_nil_iff, hwords, List.flatMap_eq_nil_iff]
    simp only [words_eq_nil_iff]
  · rw [← hwords, h.length_words_le_one_iff, ← trim_trimLines heol, trim_eq_nil_iff,
      ← visible_eq_nil_iff, visible_trimLines heol, visible_eq_nil_iff]

end Splitting

section Reading

variable {raw eol name : Text} {v : Vocabulary} {c : Comment} {g : Grammar}

/-- A tag with a value and a comment is always read, from its lines joined. -/
theorem RawTag.element_keyValue (t : RawTag) (rank : Nat) (eol : Text) :
    t.element .keyValue rank eol = .ok (.keyValue (splitKeyValue (t.joinedText eol)).1
      (splitKeyValue (t.joinedText eol)).2) := by
  simp only [RawTag.element]

/-- The occurrences of a tag stand in the order of their lines. -/
theorem Comment.pairwise_line_occurrences (hparse : Comment.parse raw v eol = .ok c)
    (name : Text) : (c.occurrences name).Pairwise (·.line < ·.line) := by
  obtain ⟨tags, htags, rfl⟩ := Comment.exists_tags_of_parse hparse
  exact (pairwise_line_readTags htags (pairwise_line_rawTags _)).filter _

/-- Every tag of the vocabulary has its occurrence. -/
theorem TagAt.exists_occurrence (hparse : Comment.parse raw v eol = .ok c)
    (hg : v.get? name = some g) {k : Nat} {rest : Text} {continuation : List Text}
    (hat : TagAt (Margin.strip raw eol) k name rest continuation) :
    ∃ o ∈ c.occurrences name, o.line = k := by
  obtain ⟨tags, htags, rfl⟩ := Comment.exists_tags_of_parse hparse
  obtain ⟨t, ht, rfl, rfl, -, -⟩ := hat.exists_rawTag
  obtain ⟨o, ho, g', rank, element, -, -, rfl⟩ :=
    exists_occurrence_of_mem htags ht (by rw [hg]; rfl)
  exact ⟨_, List.mem_filter.mpr ⟨ho, by simp⟩, rfl⟩

/-- An occurrence of a tag of two parts holds what the lines of its tag say. -/
theorem Occurrence.exists_isKeyValue (heol : eol.IsLineEnd)
    (hparse : Comment.parse raw v eol = .ok c) (hg : v.get? name = some g)
    (hshape : g.shape = .keyValue) {o : Occurrence} (ho : o ∈ c.occurrences name) :
    ∃ rest continuation value comment,
      TagAt (Margin.strip raw eol) o.line name rest continuation ∧
      o.element = .keyValue value comment ∧
      IsKeyValue eol (rest :: continuation) value comment := by
  have hne := heol.headUnique.ne_nil
  obtain ⟨tags, htags, rfl⟩ := Comment.exists_tags_of_parse hparse
  obtain ⟨hmem, hname⟩ := List.mem_filter.mp ho
  obtain ⟨t, ht, g', rank, element, hg', helement, rfl⟩ := exists_rawTag_of_mem htags hmem
  obtain rfl : t.name = name := by simpa using hname
  obtain rfl : g = g' := Option.some.inj (hg.symm.trans hg')
  rw [hshape, RawTag.element_keyValue] at helement
  obtain rfl := Except.ok.inj helement
  refine ⟨t.rest, t.continuation, _, _, RawTag.tagAt ht, rfl, ?_⟩
  rw [RawTag.joinedText]
  exact isKeyValue_splitKeyValue heol (List.cons_ne_nil _ _)
    fun l hl => (RawTag.isStripped_of_mem hne ht hl).2

end Reading

section License

variable {eol : Text} {s : Scope} {i : Issue}

/-- A license is reported exactly if it has fewer than two words. -/
theorem IsKeyValue.mem_checkLicense_iff {lines : List Text} {value comment : Text}
    (h : IsKeyValue eol lines value comment) {o : Occurrence}
    (ho : o.element = .keyValue value comment) :
    i ∈ o.checkLicense s ↔ (lines.flatMap words).length < 2 ∧ i = s.at o.line .invalidLicense := by
  have hvalue : value = [] → comment = [] := by
    intro hnil
    have hnone : lines.flatMap words = [] := List.flatMap_eq_nil_iff.mpr fun l hl =>
      words_eq_nil_iff.mpr (h.value_eq_nil_iff.mp hnil l hl)
    rw [h.comment_eq_nil_iff, hnone]
    exact Nat.zero_le 1
  have hboth : (!value.isEmpty && !comment.isEmpty) = true ↔
      ¬ (lines.flatMap words).length ≤ 1 := by
    rw [← h.comment_eq_nil_iff]
    simp only [Bool.and_eq_true, Bool.not_eq_true', List.isEmpty_eq_false_iff]
    exact ⟨fun hne => hne.2, fun hne => ⟨mt hvalue hne, hne⟩⟩
  rw [Occurrence.checkLicense, ho]
  dsimp only
  split
  · next hfull =>
    have := hboth.mp hfull
    simp only [List.not_mem_nil, false_iff, not_and]
    omega
  · next hshort =>
    rw [hboth, not_not] at hshort
    rw [List.mem_singleton, and_iff_right (by omega)]

/-- In the order of lines, the last occurrence is the one with the greatest line. -/
theorem getLast?_eq_some_iff_of_pairwise_line {os : List Occurrence}
    (h : os.Pairwise (·.line < ·.line)) {o : Occurrence} :
    os.getLast? = some o ↔ o ∈ os ∧ ∀ o' ∈ os, o'.line ≤ o.line := by
  cases os using List.reverseRecOn with
  | nil => simp
  | append_singleton front last =>
    have hfront : ∀ o' ∈ front, o'.line < last.line := fun o' ho' =>
      (List.pairwise_append.mp h).2.2 o' ho' last List.mem_cons_self
    rw [List.getLast?_concat, Option.some_inj]
    constructor
    · rintro rfl
      refine ⟨by simp, fun o' ho' => ?_⟩
      rcases List.mem_append.mp ho' with hmem | hmem
      · exact Nat.le_of_lt (hfront o' hmem)
      · rw [List.mem_singleton.mp hmem]
    · rintro ⟨ho, hmax⟩
      rcases List.mem_append.mp ho with hmem | hmem
      · have hlt := hfront o hmem
        have hle := hmax last (by simp)
        omega
      · exact (List.mem_singleton.mp hmem).symm

end License

section Statement

variable {raw eol name : Text} {v : Vocabulary} {c : Comment} {g : Grammar}

/-- The tag on a line is read into the value and the comment that its lines hold. -/
theorem TagAt.exists_isKeyValue (heol : eol.IsLineEnd) (hparse : Comment.parse raw v eol = .ok c)
    (hg : v.get? name = some g) (hshape : g.shape = .keyValue) {k : Nat} {rest : Text}
    {continuation : List Text} (hat : TagAt (Margin.strip raw eol) k name rest continuation) :
    ∃ o ∈ c.occurrences name, o.line = k ∧ ∃ value comment,
      o.element = .keyValue value comment ∧
      IsKeyValue eol (rest :: continuation) value comment := by
  obtain ⟨o, ho, rfl⟩ := hat.exists_occurrence hparse hg
  obtain ⟨rest', continuation', value, comment, hat', helement, hkey⟩ :=
    Occurrence.exists_isKeyValue heol hparse hg hshape ho
  obtain ⟨-, rfl, rfl⟩ := hat.unique hat'
  exact ⟨o, ho, rfl, value, comment, helement, hkey⟩

/-- Of several licenses the last one counts. -/
theorem Comment.mem_check_license_iff (heol : eol.IsLineEnd)
    (hparse : Comment.parse raw v eol = .ok c) (hg : v.get? name = some g)
    (hshape : g.shape = .keyValue) {s : Scope} {i : Issue} :
    i ∈ ContentRule.license.check s (c.occurrences name) ↔
      ∃ k rest continuation, TagAt (Margin.strip raw eol) k name rest continuation ∧
        (∀ k' rest' continuation',
          TagAt (Margin.strip raw eol) k' name rest' continuation' → k' ≤ k) ∧
        ((rest :: continuation).flatMap words).length < 2 ∧ i = s.at k .invalidLicense := by
  have hsorted := Comment.pairwise_line_occurrences hparse name
  rw [ContentRule.license, ContentRule.mem_check_last]
  simp only [getLast?_eq_some_iff_of_pairwise_line hsorted]
  constructor
  · rintro ⟨o, ⟨ho, hmax⟩, hi⟩
    obtain ⟨rest, continuation, value, comment, hat, helement, hkey⟩ :=
      Occurrence.exists_isKeyValue heol hparse hg hshape ho
    obtain ⟨hshort, rfl⟩ := (hkey.mem_checkLicense_iff helement).mp hi
    refine ⟨o.line, rest, continuation, hat, ?_, hshort, rfl⟩
    intro k' rest' continuation' hat'
    obtain ⟨o', ho', rfl⟩ := hat'.exists_occurrence hparse hg
    exact hmax o' ho'
  · rintro ⟨k, rest, continuation, hat, hmax, hshort, rfl⟩
    obtain ⟨o, ho, rfl, value, comment, helement, hkey⟩ :=
      hat.exists_isKeyValue heol hparse hg hshape
    refine ⟨o, ⟨ho, fun o' ho' => ?_⟩, (hkey.mem_checkLicense_iff helement).mpr ⟨hshort, rfl⟩⟩
    obtain ⟨rest', continuation', -, -, hat', -, -⟩ :=
      Occurrence.exists_isKeyValue heol hparse hg hshape ho'
    exact hmax o'.line rest' continuation' hat'

end Statement

/-- A tag of two parts is read into its first word and the rest, whatever its layout, and the rule
for licenses reports the last such tag exactly if it has fewer than two words. -/
theorem keyValues_of_parse {raw eol name : Text} {v : Vocabulary} {c : Comment} {g : Grammar}
    (heol : eol.IsLineEnd) (hparse : Comment.parse raw v eol = .ok c)
    (hg : v.get? name = some g) (hshape : g.shape = .keyValue) :
    (∀ k rest continuation, TagAt (Margin.strip raw eol) k name rest continuation →
      ∃ o ∈ c.occurrences name, o.line = k ∧ ∃ value comment,
        o.element = .keyValue value comment ∧
        IsKeyValue eol (rest :: continuation) value comment) ∧
    ∀ (s : Scope) (i : Issue), i ∈ ContentRule.license.check s (c.occurrences name) ↔
      ∃ k rest continuation, TagAt (Margin.strip raw eol) k name rest continuation ∧
        (∀ k' rest' continuation',
          TagAt (Margin.strip raw eol) k' name rest' continuation' → k' ≤ k) ∧
        ((rest :: continuation).flatMap words).length < 2 ∧ i = s.at k .invalidLicense :=
  ⟨fun _ _ _ hat => hat.exists_isKeyValue heol hparse hg hshape,
    fun _ _ => Comment.mem_check_license_iff heol hparse hg hshape⟩

/-- A license that starts below its header, behind a no-break space, and one that has no name. -/
def wrappedLicense : Text :=
  "/**\r\n * @license\r\n *\r\n * \u00a0MIT\u2003The\r\n *   license\r\n * @license MIT\r\n */"

/-- The first license has a value and a comment of two lines; the second one is reported. -/
theorem keyValues_of_parse_wrappedLicense :
    ∃ c, Comment.parse wrappedLicense .fileComment "\r\n" = .ok c ∧
      IsKeyValue "\r\n" ["", "", " \u00a0MIT\u2003The", "   license"] "MIT" "The\r\nlicense" ∧
      ∀ s : Scope, s.at 5 .invalidLicense ∈
        ContentRule.license.check s (c.occurrences "license") := by
  obtain ⟨c, hparse, hoccurrences⟩ :
      ∃ c, Comment.parse wrappedLicense .fileComment "\r\n" = .ok c ∧ c.occurrences "license" =
        [⟨"license", "license", 1, "\r\n", .keyValue "MIT" "The\r\nlicense"⟩,
          ⟨"license", "license", 5, "\r\n", .keyValue "MIT" ""⟩] := by
    let c : Comment := {
      breaksAfter := 1, firstTag := some 1
      tags := [⟨"license", "license", 1, "\r\n", .keyValue "MIT" "The\r\nlicense"⟩,
        ⟨"license", "license", 5, "\r\n", .keyValue "MIT" ""⟩]
      order := ["comment", "license", "license"] }
    have hc : Comment.parse wrappedLicense .fileComment "\r\n" = .ok c := by decide +kernel
    exact ⟨c, hc, rfl⟩
  obtain ⟨g, hg, hshape⟩ :
      ∃ g, Vocabulary.fileComment.get? "license" = some g ∧ g.shape = .keyValue := ⟨_, rfl, rfl⟩
  obtain ⟨hread, hlicense⟩ := keyValues_of_parse (.inr rfl) hparse hg hshape
  refine ⟨c, hparse, ?_, fun s => (hlicense s _).mpr ⟨5, " MIT", [], ?_, ?_, by decide, rfl⟩⟩
  · have hat : TagAt (Margin.strip wrappedLicense "\r\n") 1 "license" ""
        ["", " \u00a0MIT\u2003The", "   license"] := ⟨by decide +kernel, by decide +kernel⟩
    obtain ⟨o, ho, hline, value, comment, helement, hkey⟩ := hread _ _ _ hat
    rw [hoccurrences, List.mem_pair] at ho
    rcases ho with rfl | rfl
    · cases helement
      exact hkey
    · cases hline
  · exact ⟨by decide +kernel, by decide +kernel⟩
  · intro k rest continuation hat
    obtain ⟨o, ho, rfl⟩ := hat.exists_occurrence hparse hg
    rw [hoccurrences, List.mem_pair] at ho
    rcases ho with rfl | rfl <;> decide

end DocCheck
