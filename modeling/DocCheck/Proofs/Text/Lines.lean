import DocCheck.Proofs.Text.Split

/-!
# Physical lines

A text is read line by line by cutting it at the first separator and going on behind it. The pieces
between separators and their number are found in the same way, whatever the separator: it may
overlap itself, and what it leaves behind may look like the start of another one. The lines are
therefore the pieces with the separators behind them, and no way to write a text with separators
has more of them.
-/

namespace DocCheck.Text

/-- A text that is cut is its front, the separator and the rest. -/
theorem append_of_cut? {t sep front rest : Text} (h : t.cut? sep = some (front, rest)) :
    front ++ sep ++ rest = t := by
  induction t generalizing front with
  | nil =>
    rw [cut?] at h
    split at h
    · next hsep =>
      cases h
      simpa using hsep
    · cases h
  | cons c t ih =>
    rw [cut?] at h
    split at h
    · next hafter =>
      cases h
      simpa using (after?_eq_some_iff.mp hafter).symm
    · obtain ⟨⟨front', rest'⟩, hcut, heq⟩ := Option.map_eq_some_iff.mp h
      cases heq
      exact congrArg (c :: ·) (ih hcut)

/-- The physical lines of a text make up the text. -/
theorem flatten_lines (t sep : Text) : (t.lines sep).flatten = t := by
  fun_induction lines t sep with
  | case1 t _ hempty => simpa using hempty.symm
  | case2 t _ _ => simp
  | case3 t _ _ hempty => simpa using hempty.symm
  | case4 t _ _ _ => simp
  | case5 t _ front rest hcut _ ih => rw [List.flatten_cons, ih, append_of_cut? hcut]

section Cutting

variable {sep t front rest : Text}

/-- A text is not cut exactly if it holds no separator. -/
theorem cut?_eq_none_iff (hsep : sep ≠ []) : t.cut? sep = none ↔ ¬ sep <:+: t := by
  induction t with
  | nil => simp [cut?, hsep]
  | cons c t ih =>
    rw [List.infix_cons_iff, not_or, ← ih, ← after?_eq_none_iff, cut?]
    split
    · next hafter => simp [hafter]
    · next hafter => simp [hafter]

/-- The first piece is what stands in front of the place where a text is cut. -/
theorem splitOn_of_cut? (hsep : sep ≠ []) (h : t.cut? sep = some (front, rest)) :
    splitOn t sep = front :: splitOn rest sep := by
  induction t generalizing front with
  | nil => simp [cut?, hsep] at h
  | cons c t ih =>
    rw [cut?] at h
    split at h
    · next hafter =>
      cases h
      rw [after?_eq_some_iff.mp hafter, splitOn_sep_append hsep]
    · next hafter =>
      obtain ⟨⟨front', rest'⟩, hcut, heq⟩ := Option.map_eq_some_iff.mp h
      cases heq
      rw [splitOn_cons hsep (after?_eq_none_iff.mp hafter), ih hcut, List.modifyHead_cons]

/-- A cut takes one separator off. -/
theorem count_of_cut? (hsep : sep ≠ []) (h : t.cut? sep = some (front, rest)) :
    count t sep = count rest sep + 1 := by
  rw [← length_splitOn hsep, count, splitOn_of_cut? hsep h, List.length_cons, Nat.add_sub_cancel]

/-- A text that cannot be cut has no separator. -/
theorem count_of_cut?_eq_none (hsep : sep ≠ []) (h : t.cut? sep = none) : count t sep = 0 := by
  rw [count, splitOn_of_not_infix hsep ((cut?_eq_none_iff hsep).mp h)]
  rfl

/-- Where a text is cut does not depend on what follows the separator. -/
theorem cut?_append (h : t.cut? sep = some (front, rest)) (u : Text) :
    (front ++ sep ++ u).cut? sep = some (front, u) := by
  induction t generalizing front with
  | nil =>
    rw [cut?] at h
    split at h
    · next hsep =>
      obtain rfl := List.isEmpty_iff.mp hsep
      cases h
      cases u <;> rfl
    · cases h
  | cons c t ih =>
    rw [cut?] at h
    split at h
    · cases h
      have hafter : (sep ++ u).after? sep = some u := after?_eq_some_iff.mpr rfl
      rw [List.nil_append]
      cases hu : sep ++ u with
      | nil =>
        obtain ⟨rfl, rfl⟩ := List.append_eq_nil_iff.mp hu
        rfl
      | cons d v => rw [cut?, ← hu, hafter]
    · next hafter =>
      obtain ⟨⟨front', rest'⟩, hcut, heq⟩ := Option.map_eq_some_iff.mp h
      cases heq
      -- A separator at the start would lie in front of the end of the one that was found.
      have hnone : after? (c :: (front' ++ sep ++ u)) sep = none := by
        rw [after?_eq_none_iff] at hafter ⊢
        intro hprefix
        have hshort : sep <+: c :: (front' ++ sep) := by
          refine List.prefix_of_prefix_length_le hprefix ⟨u, rfl⟩ ?_
          simp only [List.length_cons, List.length_append]
          omega
        rw [← append_of_cut? hcut] at hafter
        exact hafter (hshort.trans ⟨rest, rfl⟩)
      rw [List.cons_append, List.cons_append, cut?, hnone, ih hcut]
      rfl

/-- A line holds one separator, which ends it. -/
theorem count_line (hsep : sep ≠ []) (h : t.cut? sep = some (front, rest)) :
    count (front ++ sep) sep = 1 := by
  have hcut := cut?_append h []
  rw [List.append_nil] at hcut
  rw [count_of_cut? hsep hcut, count, splitOn_nil hsep]
  rfl

/-- A text is read by cutting off line after line, until no separator is left. -/
theorem cut?_induction (hsep : sep ≠ []) {motive : Text → Prop}
    (last : ∀ t, t.cut? sep = none → motive t)
    (line : ∀ t front rest, t.cut? sep = some (front, rest) → motive rest → motive t) (t : Text) :
    motive t := by
  induction hn : t.length using Nat.strong_induction_on generalizing t with
  | _ n ih =>
    cases hcut : t.cut? sep with
    | none => exact last t hcut
    | some parts =>
      have hlt := length_cut? (by simpa using hsep) hcut
      exact line t parts.1 parts.2 hcut (ih parts.2.length (by omega) parts.2 rfl)

end Cutting

section Lines

variable {sep t front rest : Text}

/-- One step: the first line ends with its separator, and the others follow. -/
theorem lines_of_cut? (hsep : sep ≠ []) (h : t.cut? sep = some (front, rest)) :
    lines t sep = (front ++ sep) :: lines rest sep := by
  rw [lines, dif_neg (by simpa using hsep)]
  split
  · next hnone => cases h.symm.trans hnone
  · next hsome =>
    cases h.symm.trans hsome
    rfl

/-- What stands behind the last separator is a line unless it is empty. -/
theorem lines_of_cut?_eq_none (h : t.cut? sep = none) :
    lines t sep = if t.isEmpty then [] else [t] := by
  rw [lines]
  split
  · rfl
  · split
    · rfl
    · next hsome => cases h.symm.trans hsome

/-- Every line holds something. -/
theorem ne_nil_of_mem_lines (hsep : sep ≠ []) {l : Text} (hl : l ∈ lines t sep) : l ≠ [] := by
  induction t using cut?_induction hsep with
  | last t hcut =>
    rw [lines_of_cut?_eq_none hcut] at hl
    split at hl
    · cases hl
    · next hne =>
      rw [List.mem_singleton.mp hl]
      simpa using hne
  | line t front rest hcut ih =>
    rw [lines_of_cut? hsep hcut] at hl
    rcases List.mem_cons.mp hl with rfl | hl
    · exact List.append_ne_nil_of_right_ne_nil front hsep
    · exact ih hl

/-- A line is a piece with a separator behind it, except for the last piece, which has none and is a
line only if it is not empty. -/
theorem getElem?_lines (hsep : sep ≠ []) (t : Text) (i : Nat) :
    (lines t sep)[i]? =
      if i < count t sep then (splitOn t sep)[i]?.map (· ++ sep)
      else (splitOn t sep)[i]?.filter (!·.isEmpty) := by
  induction t using cut?_induction hsep generalizing i with
  | last t hcut =>
    rw [count_of_cut?_eq_none hsep hcut, if_neg (Nat.not_lt_zero i), lines_of_cut?_eq_none hcut,
      splitOn_of_not_infix hsep ((cut?_eq_none_iff hsep).mp hcut)]
    cases i with
    | zero => cases t <;> rfl
    | succ i => cases t <;> rfl
  | line t front rest hcut ih =>
    rw [lines_of_cut? hsep hcut, splitOn_of_cut? hsep hcut, count_of_cut? hsep hcut]
    cases i with
    | zero => rw [if_pos (Nat.succ_pos _)]; rfl
    | succ i =>
      rw [List.getElem?_cons_succ, List.getElem?_cons_succ, ih]
      simp only [Nat.add_lt_add_iff_right]

end Lines

section Counting

variable {sep t : Text}

/-- Behind any place there are at most as many separators as in the whole text. -/
theorem count_le_of_suffix (hsep : sep ≠ []) {u : Text} (h : u <:+ t) :
    count u sep ≤ count t sep := by
  induction t using splitOn_induction hsep generalizing u with
  | nil => rw [List.suffix_nil.mp h]
  | other c t hprefix ih =>
    rcases List.suffix_cons_iff.mp h with rfl | h
    · exact Nat.le_refl _
    · rw [count_cons hsep hprefix]
      exact ih h
  | found w ih =>
    rw [count_sep_append hsep]
    by_cases hu : u <:+ w
    · exact Nat.le_succ_of_le (ih hu)
    · -- The text starts inside the first separator. Its own first separator ends in `w`.
      cases hcut : u.cut? sep with
      | none =>
        rw [count_of_cut?_eq_none hsep hcut]
        exact Nat.zero_le _
      | some parts =>
        obtain ⟨front, rest⟩ := parts
        rw [count_of_cut? hsep hcut]
        have hsplit := append_of_cut? hcut
        have hrest : rest <:+ w := by
          refine List.suffix_of_suffix_length_le ?_ (List.suffix_append sep w) ?_
          · exact (List.suffix_append _ rest).trans (hsplit ▸ h)
          · have hle := h.length_le
            rw [← hsplit] at hle
            simp only [List.length_append] at hle
            omega
        exact Nat.succ_le_succ (ih hrest)

/-- No way to write a text as parts with separators between them has more separators than are
counted. -/
theorem length_le_count_join (hsep : sep ≠ []) (parts : List Text) :
    parts.length ≤ count (join sep parts) sep + 1 := by
  induction parts with
  | nil => exact Nat.zero_le _
  | cons p ps ih =>
    by_cases hps : ps = []
    · simp [hps]
    · have hsuffix : sep ++ join sep ps <:+ join sep (p :: ps) := by
        rw [join_cons _ _ hps]
        exact List.suffix_append _ _
      have hle := count_le_of_suffix hsep hsuffix
      rw [count_sep_append hsep] at hle
      rw [List.length_cons]
      omega

end Counting

end DocCheck.Text
