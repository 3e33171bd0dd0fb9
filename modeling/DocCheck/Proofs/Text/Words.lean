import DocCheck.Proofs.Text.Trim
import DocCheck.Proofs.Text.Visible

/-!
# Words and lines

White space of any kind separates the words of a text, line ends included, so wrapping a text
differently does not change its words. Lines can be trimmed one by one and the text as a whole, in
either order, and the first word of a text stays where it is when this is done.
-/

namespace DocCheck.Text

/-- The words of a text, in order: its longest runs of characters that are no white space. -/
def words (t : Text) : List Text := (t.splitOnP isSpace).filter (!·.isEmpty)

section Words

/-- Words are separated by each white space; everything about them follows from this. -/
theorem words_append_cons {c : Char} (hc : isSpace c) (t u : Text) :
    words (t ++ c :: u) = words t ++ words u := by
  rw [words, List.splitOnP_append_cons t u hc, List.filter_append]
  rfl

/-- A text without spaces is one word. -/
theorem words_of_visible {t : Text} (hne : t ≠ []) (h : ∀ c ∈ t, isSpace c = false) :
    words t = [t] := by
  rw [words, List.splitOnP_eq_singleton h]
  simpa using hne

/-- Blanks in front hold no words. -/
theorem words_blank_append {blank : Text} (h : blank.isBlank) (t : Text) :
    words (blank ++ t) = words t := by
  induction blank with
  | nil => rfl
  | cons c blank ih =>
    obtain ⟨hc, hblank⟩ := Bool.and_eq_true_iff.mp (List.all_cons.symm.trans h)
    exact (words_append_cons hc [] (blank ++ t)).trans (ih hblank)

/-- White space of any length separates words. -/
theorem words_append_blank {blank : Text} (hne : blank ≠ []) (h : blank.isBlank) (t u : Text) :
    words (t ++ (blank ++ u)) = words t ++ words u := by
  obtain ⟨c, blank, rfl⟩ := List.exists_cons_of_ne_nil hne
  obtain ⟨hc, hblank⟩ := Bool.and_eq_true_iff.mp (List.all_cons.symm.trans h)
  rw [List.cons_append, words_append_cons hc, words_blank_append hblank]

/-- The words of joined texts are those of the texts. -/
theorem words_join {sep : Text} (hne : sep ≠ []) (hsep : sep.isBlank) (ts : List Text) :
    words (join sep ts) = ts.flatMap words := by
  induction ts with
  | nil => rfl
  | cons t ts ih =>
    by_cases hts : ts = []
    · rw [hts, join_singleton, List.flatMap_singleton]
    · rw [join_cons _ _ hts, words_append_blank hne hsep, ih, List.flatMap_cons]

/-- Blanks at the end hold no words. -/
theorem words_append_of_isBlank {blank : Text} (h : blank.isBlank) (t : Text) :
    words (t ++ blank) = words t := by
  by_cases hne : blank = []
  · rw [hne, List.append_nil]
  · have hwords := words_append_blank hne h t []
    rw [List.append_nil] at hwords
    exact hwords.trans (List.append_nil _)

/-- White space at the ends of a text is not part of its words. -/
theorem words_trim (t : Text) : words t.trim = words t := by
  have hstart : words t.trimStart = words t := by
    conv_rhs => rw [← List.takeWhile_append_dropWhile (p := isSpace) (l := t)]
    exact (words_blank_append (List.all_eq_true.mpr fun c hc => List.mem_takeWhile_imp hc) _).symm
  obtain ⟨blank, htrim, hblank⟩ := exists_blank_of_trimEnd t.trimStart
  rw [← hstart, htrim, words_append_of_isBlank hblank]
  rfl

end Words

/-- The first word of a text and what stands behind it; a blank text has neither. -/
structure FirstWord (t word behind : Text) : Prop where
  lead : ∃ lead, t = lead ++ (word ++ behind) ∧ lead.isBlank
  word_visible : ∀ c ∈ word, isSpace c = false
  /-- The word ends at white space or at the end of the text. -/
  behind_head : ∀ c ∈ behind.head?, isSpace c
  behind_eq_nil : word = [] → behind = []

section FirstWord

variable {t word behind : Text}

/-- Every text has a first word, which may be empty. -/
theorem exists_firstWord (t : Text) : ∃ word behind, FirstWord t word behind := by
  obtain ⟨lead, rest, rfl, hlead, hrest⟩ := exists_span isSpace t
  obtain ⟨word, behind, rfl, hword, hbehind⟩ := exists_span (!isSpace ·) rest
  have hhead : ∀ c ∈ behind.head?, isSpace c := fun c hc => by simpa using hbehind c hc
  refine ⟨word, behind, ⟨lead, rfl, List.all_eq_true.mpr hlead⟩,
    fun c hc => by simpa using hword c hc, hhead, ?_⟩
  rintro rfl
  -- What follows the lead is no white space, and what follows the word is.
  by_contra hne
  obtain ⟨c, rest, rfl⟩ := List.exists_cons_of_ne_nil hne
  have hspace := hhead c rfl
  rw [hrest c rfl] at hspace
  cases hspace

/-- The words of a text are its first one and those behind it. -/
theorem FirstWord.words_append (h : FirstWord t word behind) :
    words word ++ words behind = words t := by
  obtain ⟨lead, rfl, hlead⟩ := h.lead
  rw [words_blank_append hlead]
  cases behind with
  | nil =>
    rw [List.append_nil]
    exact List.append_nil _
  | cons c behind =>
    have hc := h.behind_head c rfl
    have hskip : words (c :: behind) = words behind := words_append_cons hc [] behind
    rw [words_append_cons hc, hskip]

/-- The first word is empty for blank texts only. -/
theorem FirstWord.word_eq_nil_iff (h : FirstWord t word behind) : word = [] ↔ t.isBlank := by
  obtain ⟨lead, rfl, hlead⟩ := h.lead
  constructor
  · rintro rfl
    rw [h.behind_eq_nil rfl, List.append_nil, List.append_nil]
    exact hlead
  · intro hblank
    refine List.eq_nil_iff_forall_not_mem.mpr fun c hc => ?_
    have hspace : isSpace c := List.all_eq_true.mp hblank c (by simp [hc])
    rw [h.word_visible c hc] at hspace
    cases hspace

/-- Only blank texts have no words. -/
theorem words_eq_nil_iff : words t = [] ↔ t.isBlank := by
  constructor
  · intro hnone
    obtain ⟨word, behind, h⟩ := exists_firstWord t
    refine h.word_eq_nil_iff.mp ?_
    by_contra hne
    rw [← h.words_append, words_of_visible hne h.word_visible] at hnone
    cases hnone
  · intro hblank
    rw [← List.append_nil t, words_blank_append hblank]
    rfl

/-- Behind the only word of a text stands nothing but white space. -/
theorem FirstWord.length_words_le_one_iff (h : FirstWord t word behind) :
    (words t).length ≤ 1 ↔ behind.isBlank := by
  rw [← words_eq_nil_iff, ← List.length_eq_zero_iff]
  by_cases hne : word = []
  · rw [words_eq_nil_iff.mpr (h.word_eq_nil_iff.mp hne), h.behind_eq_nil hne]
    exact iff_of_true (Nat.zero_le 1) rfl
  · rw [← h.words_append, words_of_visible hne h.word_visible, List.singleton_append,
      List.length_cons]
    omega

end FirstWord

/-- A text with each of its lines trimmed. -/
def trimLines (t eol : Text) : Text := join eol ((t.splitOn eol).map trim)

section Lines

variable {eol : Text}

/-- An empty text has nothing to trim. -/
theorem trimLines_nil (heol : eol ≠ []) : trimLines [] eol = [] := by
  rw [trimLines, splitOn_nil heol]
  exact join_singleton eol []

/-- A single line is trimmed at its ends. -/
theorem trimLines_eq_trim (heol : eol ≠ []) {t : Text} (h : ¬ eol <:+: t) :
    t.trimLines eol = t.trim := by
  rw [trimLines, splitOn_of_not_infix heol h]
  exact join_singleton eol _

/-- Lines are trimmed one by one. -/
theorem trimLines_append_sep (heol : HeadUnique eol) (t u : Text) :
    trimLines (t ++ (eol ++ u)) eol = t.trimLines eol ++ (eol ++ u.trimLines eol) := by
  rw [trimLines, splitOn_append_sep heol, List.map_append, join_append, trimLines, trimLines]
  · simpa using splitOn_ne_nil heol.ne_nil t
  · simpa using splitOn_ne_nil heol.ne_nil u

/-- Trimming the lines takes nothing visible. -/
theorem visible_trimLines (heol : IsLineEnd eol) (t : Text) :
    visible (t.trimLines eol) = visible t := by
  rw [trimLines, visible_join heol.isBlank, visibleAll_map visible_trim,
    ← visible_join heol.isBlank, join_splitOn heol.headUnique.ne_nil]

/-- Trimming the lines keeps the words. -/
theorem words_trimLines (heol : IsLineEnd eol) (t : Text) : words (t.trimLines eol) = words t := by
  have hne := heol.headUnique.ne_nil
  have hlines : (fun l => words (trim l)) = words := funext words_trim
  rw [trimLines, words_join hne heol.isBlank, List.flatMap_map, hlines,
    ← words_join hne heol.isBlank, join_splitOn hne]

/-- Trimming the end of a text with trimmed lines is trimming its end first. -/
theorem trimEnd_trimLines (heol : IsLineEnd eol) (t : Text) :
    (t.trimLines eol).trimEnd = t.trimEnd.trimLines eol := by
  have hne := heol.headUnique.ne_nil
  induction hn : t.length using Nat.strong_induction_on generalizing t with
  | _ n ih =>
    by_cases hpart : eol <:+: t
    · obtain ⟨front, behind, rfl, hbehind⟩ := exists_afterLast hne hpart
      rw [trimLines_append_sep heol.headUnique, trimLines_eq_trim hne hbehind]
      cases hblank : behind.isBlank with
      | true =>
        -- The last line goes, and with it the line end in front of it.
        have hlast : isBlank (eol ++ behind) := by
          rw [isBlank, List.all_append, Bool.and_eq_true]
          exact ⟨heol.isBlank, hblank⟩
        have hlength : front.length < n := by
          have := List.length_pos_of_ne_nil hne
          rw [← hn, List.length_append, List.length_append]
          omega
        rw [trim_eq_nil_iff.mpr hblank, List.append_nil,
          trimEnd_append_of_isBlank _ heol.isBlank, ih front.length hlength front rfl,
          trimEnd_append_of_isBlank _ hlast]
      | false =>
        have hcut : ¬ eol <:+: behind.trimEnd := fun hover =>
          hbehind (hover.trans (trimEnd_isPrefix behind).isInfix)
        have hshown : isBlank (trim behind) = false := by
          rw [← Bool.not_eq_true, ← trim_eq_nil_iff, trim_trim, trim_eq_nil_iff, hblank]
          exact Bool.false_ne_true
        rw [← List.append_assoc, trimEnd_append_of_not_isBlank _ hshown,
          ← List.append_assoc front, trimEnd_append_of_not_isBlank _ hblank, List.append_assoc,
          List.append_assoc, trimLines_append_sep heol.headUnique,
          trimLines_eq_trim hne hcut, trim_trimEnd]
        exact congrArg _ (congrArg _ (trimEnd_trimEnd _))
    · have hcut : ¬ eol <:+: t.trimEnd := fun hover =>
        hpart (hover.trans (trimEnd_isPrefix t).isInfix)
      rw [trimLines_eq_trim hne hpart, trimLines_eq_trim hne hcut, trim_trimEnd]
      exact trimEnd_trimEnd _

/-- A space in front is trimmed. -/
theorem trim_cons_of_isSpace {c : Char} (hc : isSpace c) (t : Text) : trim (c :: t) = trim t :=
  trim_append_of_isBlank (show isBlank [c] by simpa [isBlank] using hc) t

/-- Of a text that starts with a word only the end is trimmed. -/
theorem trim_word_append {word : Text} (hne : word ≠ []) (hword : ∀ c ∈ word, isSpace c = false)
    (t : Text) : trim (word ++ t) = word ++ t.trimEnd := by
  obtain ⟨c, word, rfl⟩ := List.exists_cons_of_ne_nil hne
  have hstart : trimStart (c :: word ++ t) = c :: word ++ t :=
    trimStart_eq_self_iff.mpr fun x hx => by
      obtain rfl : c = x := by simpa using hx
      exact hword c List.mem_cons_self
  have hend : trimEnd (c :: word) = c :: word :=
    trimEnd_eq_self_iff.mpr fun x hx => hword x (List.mem_of_getLast? hx)
  rw [trim, hstart, trimEnd_append_of_trimEnd_eq hend]

/-- Trimming the start of a text with trimmed lines is trimming its start first. -/
theorem trimStart_trimLines (heol : IsLineEnd eol) (t : Text) :
    (t.trimLines eol).trimStart = t.trimStart.trimLines eol := by
  have hne := heol.headUnique.ne_nil
  have hstart {blank u : Text} (h : blank.isBlank) : trimStart (blank ++ u) = trimStart u :=
    List.dropWhile_append_of_pos (List.all_eq_true.mp h)
  induction t using splitOn_induction hne with
  | nil => rw [trimLines_nil hne]; exact (trimLines_nil hne).symm
  | found t ih =>
    have hlines := trimLines_append_sep heol.headUnique [] t
    rw [List.nil_append, trimLines_nil hne, List.nil_append] at hlines
    rw [hlines, hstart heol.isBlank, hstart heol.isBlank, ih]
  | other c t hprefix ih =>
    obtain ⟨p, ps, hps⟩ := List.exists_cons_of_ne_nil (splitOn_ne_nil hne t)
    have hlines : trimLines (c :: t) eol = join eol (trim (c :: p) :: ps.map trim) := by
      rw [trimLines, splitOn_cons hne hprefix, hps]
      rfl
    cases hc : isSpace c with
    | true =>
      have hsame : trimLines (c :: t) eol = trimLines t eol := by
        rw [hlines, trim_cons_of_isSpace hc, trimLines, hps]
        rfl
      rw [hsame, ih]
      exact congrArg (trimLines · eol)
        (hstart (show isBlank [c] by simpa [isBlank] using hc)).symm
    | false =>
      have hword : ∀ x ∈ [c], isSpace x = false := by simpa using hc
      have htrim : trim (c :: p) = c :: p.trimEnd :=
        trim_word_append (List.cons_ne_nil c []) hword p
      have hshown {u : Text} : trimStart (c :: u) = c :: u :=
        trimStart_eq_self_iff.mpr fun x hx => by
          obtain rfl : c = x := by simpa using hx
          exact hc
      have hjoin := join_append_cons eol [c] p.trimEnd (ps.map trim)
      rw [List.singleton_append, ← htrim, ← hlines, List.singleton_append] at hjoin
      rw [hshown, hjoin, hshown]

/-- Trimming a text and trimming its lines commute. -/
theorem trim_trimLines (heol : IsLineEnd eol) (t : Text) :
    (t.trimLines eol).trim = t.trim.trimLines eol := by
  rw [← trimStart_trimEnd, trimEnd_trimLines heol, trimStart_trimLines heol, trimStart_trimEnd]

/-- A word in front of a text joins its first line. -/
theorem splitOn_word_append (heol : IsLineEnd eol) {word : Text}
    (hword : ∀ c ∈ word, isSpace c = false) {t p : Text} {ps : List Text}
    (ht : splitOn t eol = p :: ps) : splitOn (word ++ t) eol = (word ++ p) :: ps := by
  have hne := heol.headUnique.ne_nil
  induction word with
  | nil => exact ht
  | cons c word ih =>
    obtain ⟨hc, hrest⟩ := List.forall_mem_cons.mp hword
    have hprefix : ¬ eol <+: c :: (word ++ t) := by
      rintro ⟨behind, hbehind⟩
      obtain ⟨x, eol, rfl⟩ := List.exists_cons_of_ne_nil hne
      obtain ⟨rfl, -⟩ := List.cons_eq_cons.mp hbehind
      have hspace : isSpace x := List.all_eq_true.mp heol.isBlank x List.mem_cons_self
      rw [hc] at hspace
      cases hspace
    rw [List.cons_append, splitOn_cons hne hprefix, ih hrest, List.modifyHead_cons,
      List.cons_append]

/-- Trimming lines keeps the first word in its place, and behind it what stands there with its lines
trimmed, up to white space in front. -/
theorem exists_trimLines_word_append (heol : IsLineEnd eol) {word : Text} (hne : word ≠ [])
    (hword : ∀ c ∈ word, isSpace c = false) {t : Text} (ht : ∀ c ∈ t.head?, isSpace c) :
    ∃ behind, trimLines (word ++ t) eol = word ++ behind ∧ (∀ c ∈ behind.head?, isSpace c) ∧
      behind.trim = (t.trimLines eol).trim := by
  have heolne := heol.headUnique.ne_nil
  obtain ⟨p, ps, hps⟩ := List.exists_cons_of_ne_nil (splitOn_ne_nil heolne t)
  refine ⟨join eol (p.trimEnd :: ps.map trim), ?_, ?_, ?_⟩
  · rw [trimLines, splitOn_word_append heol hword hps, List.map_cons, trim_word_append hne hword,
      join_append_cons]
  · intro c hc
    by_cases hnil : p.trimEnd = []
    · by_cases hps' : ps.map trim = []
      · rw [hnil, hps'] at hc
        cases hc
      · rw [hnil, join_cons _ _ hps', List.nil_append, List.head?_append_of_ne_nil _ heolne] at hc
        exact List.all_eq_true.mp heol.isBlank c (List.mem_of_head? hc)
    · -- The first line starts with what the text starts with.
      rw [head?_join hnil] at hc
      have hfirst : p <+: t := head?_splitOn_prefix heolne (by rw [hps]; rfl)
      obtain ⟨rest, hrest⟩ := (trimEnd_isPrefix p).trans hfirst
      refine ht c ?_
      rw [← hrest, List.head?_append_of_ne_nil _ hnil]
      exact hc
  · have hsplit : p.trimEnd = p.trimEnd.takeWhile isSpace ++ p.trim := by
      rw [← trimStart_trimEnd]
      exact List.takeWhile_append_dropWhile.symm
    have hblank : isBlank (p.trimEnd.takeWhile isSpace) :=
      List.all_eq_true.mpr fun c hc => List.mem_takeWhile_imp hc
    rw [hsplit, join_append_cons, trim_append_of_isBlank hblank, trimLines, hps, List.map_cons]

end Lines

end DocCheck.Text
