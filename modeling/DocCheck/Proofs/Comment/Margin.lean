import DocCheck.Comment.Margin
import DocCheck.Proofs.Text.Trim
import Mathlib.Data.List.Forall2

/-!
# What stripping leaves

Stripping gives one line for each physical line, and that line is a part of it. A stripped line
therefore holds no separator, and its characters are characters of the comment.
-/

namespace DocCheck

namespace Margin

/-- Taking the opening marker off leaves a part of the line. -/
theorem dropOpener_isInfix (line : Text) : dropOpener line <:+: line := by
  rw [dropOpener]
  cases hafter : Text.after? (line.dropWhile isMargin) "/**" with
  | none => exact List.infix_rfl
  | some rest =>
    have hsuffix : rest <:+ line.dropWhile isMargin := ⟨_, (Text.after?_eq_some_iff.mp hafter).symm⟩
    exact (hsuffix.trans (List.dropWhile_suffix _)).isInfix

/-- Taking the star off leaves a part of the line. -/
theorem dropStar_isInfix (line : Text) : dropStar line <:+: line := by
  have hsuffix : line.dropWhile isMargin <:+ line := List.dropWhile_suffix _
  unfold dropStar
  split
  · next rest hrest => exact ((List.suffix_cons '*' rest).trans (hrest ▸ hsuffix)).isInfix
  · exact hsuffix.isInfix

/-- Taking the closing marker off leaves a part of the line. -/
theorem dropCloser_isInfix (line : Text) : dropCloser line <:+: line := by
  have hprefix := Text.trimEnd_isPrefix line
  unfold dropCloser
  split
  · next rest hrest =>
    have heq : line.trimEnd = rest.reverse ++ ['*', '/'] := by
      rw [← List.reverse_reverse line.trimEnd, hrest]
      simp
    exact ((List.prefix_append _ _).trans (heq ▸ hprefix)).isInfix
  · exact hprefix.isInfix

/-- Taking the closing marker off the last line leaves parts of the lines, in their order. -/
theorem forall₂_dropLastCloser (lines : List Text) :
    List.Forall₂ (· <:+: ·) (dropLastCloser lines) lines := by
  fun_induction dropLastCloser lines with
  | case1 => exact .nil
  | case2 line => exact .cons (dropCloser_isInfix line) .nil
  | case3 line lines _ ih => exact .cons List.infix_rfl ih

/-- Each stripped line is a part of its physical line. -/
theorem forall₂_strip (raw eol : Text) :
    List.Forall₂ (· <:+: ·) (strip raw eol) (raw.splitOn eol) := by
  have hclosed := forall₂_dropLastCloser (raw.splitOn eol)
  have htrim {l p : Text} (h : l <:+: p) : l.trimEnd <:+: p :=
    (Text.trimEnd_isPrefix l).isInfix.trans h
  unfold strip
  generalize raw.splitOn eol = pieces at hclosed ⊢
  generalize dropLastCloser pieces = closed at hclosed ⊢
  cases hclosed with
  | nil => exact .nil
  | cons hfirst hrest =>
    refine .cons (htrim ((dropOpener_isInfix _).trans hfirst)) (List.forall₂_map_left_iff.mpr ?_)
    exact hrest.imp fun l p hl => htrim ((dropStar_isInfix l).trans hl)

/-- Stripping keeps the number of lines. -/
theorem length_strip (raw eol : Text) : (strip raw eol).length = (raw.splitOn eol).length :=
  (forall₂_strip raw eol).length_eq

/-- The stripped line with a number is a part of the physical line with that number. -/
theorem exists_piece_of_strip {raw eol l : Text} {i : Nat} (h : (strip raw eol)[i]? = some l) :
    ∃ p, (raw.splitOn eol)[i]? = some p ∧ l <:+: p := by
  obtain ⟨hi, rfl⟩ := List.getElem?_eq_some_iff.mp h
  have hi' : i < (raw.splitOn eol).length := length_strip raw eol ▸ hi
  exact ⟨_, List.getElem?_eq_getElem hi', (forall₂_strip raw eol).get hi hi'⟩

/-- A stripped line is a part of a line of the source. -/
theorem exists_piece_of_mem_strip {raw eol l : Text} (h : l ∈ strip raw eol) :
    ∃ p ∈ raw.splitOn eol, l <:+: p := by
  obtain ⟨i, hi⟩ := List.mem_iff_getElem?.mp h
  obtain ⟨p, hp, hpart⟩ := exists_piece_of_strip hi
  exact ⟨p, List.mem_of_getElem? hp, hpart⟩

/-- The lines of text of the given physical lines. -/
def stripLines (ls : List Text) : List Text :=
  match dropLastCloser ls with
  | [] => []
  | first :: rest => (dropOpener first).trimEnd :: rest.map fun line => (dropStar line).trimEnd

/-- Stripping joined lines strips the lines. -/
theorem strip_join {eol : Text} (heol : Text.HeadUnique eol) {ls : List Text} (hne : ls ≠ [])
    (hls : ∀ l ∈ ls, ¬ eol <:+: l) : strip (Text.join eol ls) eol = stripLines ls := by
  rw [strip, Text.splitOn_join heol hne hls]
  rfl

/-- Only the last line loses a closing marker. -/
theorem dropLastCloser_concat (ls : List Text) (l : Text) :
    dropLastCloser (ls ++ [l]) = ls ++ [dropCloser l] := by
  induction ls with
  | nil => rfl
  | cons first ls ih =>
    cases ls with
    | nil => rfl
    | cons second ls => exact congrArg (first :: ·) ih

/-- The closer is taken from the last line, the opener from the first and the stars from all
others. -/
theorem stripLines_concat (first : Text) (ls : List Text) (closer : Text) :
    stripLines (first :: (ls ++ [closer])) =
      (dropOpener first).trimEnd :: (ls.map (fun l => (dropStar l).trimEnd) ++
        [(dropStar (dropCloser closer)).trimEnd]) := by
  rw [stripLines, ← List.cons_append, dropLastCloser_concat]
  simp only [List.cons_append, List.map_append, List.map_cons, List.map_nil]

/-- A stripped line has no trailing blanks. -/
theorem trimEnd_of_mem_strip {raw eol l : Text} (h : l ∈ strip raw eol) : l.trimEnd = l := by
  unfold strip at h
  split at h
  · cases h
  · rcases List.mem_cons.mp h with rfl | h
    · exact Text.trimEnd_trimEnd _
    · obtain ⟨line, -, rfl⟩ := List.mem_map.mp h
      exact Text.trimEnd_trimEnd _

/-- A stripped line holds no separator. -/
theorem not_infix_of_mem_strip {raw eol l : Text} (heol : eol ≠ []) (h : l ∈ strip raw eol) :
    ¬ eol <:+: l := by
  obtain ⟨p, hp, hpart⟩ := exists_piece_of_mem_strip h
  exact fun hl => Text.not_infix_of_mem_splitOn heol hp (hl.trans hpart)

end Margin

/-- A line as stripping leaves it: without line end and without white space behind. -/
def IsStripped (eol l : Text) : Prop := l.trimEnd = l ∧ ¬ eol <:+: l

/-- A stripped line that is blank is empty. -/
theorem IsStripped.eq_nil {eol l : Text} (h : IsStripped eol l) (hblank : l.isBlank) : l = [] :=
  h.1.symm.trans (Text.trimEnd_eq_nil_iff.mpr hblank)

/-- The end of a stripped line is stripped. -/
theorem IsStripped.of_suffix {eol l u : Text} (h : IsStripped eol l) (hu : u <:+ l) :
    IsStripped eol u :=
  ⟨Text.trimEnd_of_suffix hu h.1, fun hpart => h.2 (hpart.trans hu.isInfix)⟩

/-- Stripping gives stripped lines. -/
theorem Margin.isStripped_of_mem_strip {raw eol l : Text} (heol : eol ≠ [])
    (h : l ∈ strip raw eol) : IsStripped eol l :=
  ⟨trimEnd_of_mem_strip h, not_infix_of_mem_strip heol h⟩

end DocCheck
