import DocCheck.Comment.Parser
import DocCheck.Proofs.Text.Trim
import Mathlib.Data.List.TakeWhile
import Mathlib.Tactic.Common

/-!
# Tag headers

A header line is a margin, an `@`, a name and a remainder. The tags that grouping finds are the
header lines of a comment, in order and each with its own line number.
-/

namespace DocCheck

/-- The characters of a name are visible. -/
theorem isSpace_of_isTagChar {c : Char} (h : isTagChar c) : isSpace c = false := by
  have hcode : 0x2D ≤ c.toNat ∧ c.toNat ≤ 0x7A := by
    rcases (Bool.or_eq_true _ _).mp h with h | h
    · rcases (Bool.or_eq_true _ _).mp h with h | h
      · rcases (Bool.or_eq_true _ _).mp h with h | h
        · rcases (Bool.or_eq_true _ _).mp h with h | h
          · have hupper : 65 ≤ c.toNat ∧ c.toNat ≤ 90 := of_decide_eq_true h
            omega
          · obtain ⟨hlow, hhigh⟩ := (Bool.and_eq_true _ _).mp h
            have hlow : 97 ≤ c.toNat := of_decide_eq_true hlow
            have hhigh : c.toNat ≤ 122 := of_decide_eq_true hhigh
            omega
        · have hdigit := Char.isDigit_iff_toNat.mp h
          simp only [Char.reduceToNat] at hdigit
          omega
      · rw [beq_iff_eq.mp h]
        decide
    · rw [beq_iff_eq.mp h]
      decide
  simp only [isSpace, Bool.or_eq_false_iff, Bool.and_eq_false_iff, decide_eq_false_iff_not,
    beq_eq_false_iff_ne]
  omega

/-- A header line is a margin, an `@`, the name and the remainder. -/
theorem exists_margin_of_header? {line name rest : Text} (h : header? line = some (name, rest)) :
    ∃ margin : Text, line = margin ++ '@' :: (name ++ rest) ∧ (∀ c ∈ margin, isMargin c) ∧
      ∀ c ∈ name, isTagChar c := by
  unfold header? at h
  split at h
  · next tail htail =>
    dsimp only at h
    split at h
    · cases h
    · simp only [Option.some.injEq, Prod.mk.injEq] at h
      obtain ⟨rfl, rfl⟩ := h
      refine ⟨line.takeWhile isMargin, ?_, fun c hc => List.mem_takeWhile_imp hc,
        fun c hc => List.mem_takeWhile_imp hc⟩
      rw [List.takeWhile_append_dropWhile, ← htail, List.takeWhile_append_dropWhile]
  · cases h

/-- A header shows an `@`, so a blank line is none. -/
theorem isHeader_of_isBlank {l : Text} (h : l.isBlank) : isHeader l = false := by
  rw [isHeader, Option.isSome_eq_false_iff, Option.isNone_iff_eq_none]
  by_contra hne
  obtain ⟨⟨name, rest⟩, hheader⟩ := Option.ne_none_iff_exists'.mp hne
  obtain ⟨margin, rfl, -, -⟩ := exists_margin_of_header? hheader
  have hat : isSpace '@' := List.all_eq_true.mp h '@' (by simp)
  exact absurd hat (by decide)

/-- A line that opens a tag is not blank. -/
theorem isBlank_of_header? {l name rest : Text} (h : header? l = some (name, rest)) :
    l.isBlank = false := by
  rw [← Bool.not_eq_true]
  intro hblank
  have hheader := isHeader_of_isBlank hblank
  simp [isHeader, h] at hheader

/-- A name behind an `@` is read up to the first character that is no part of a name. -/
theorem header?_name {name rest : Text} (hne : name ≠ []) (hname : ∀ c ∈ name, isTagChar c)
    (hrest : ∀ c ∈ rest.head?, isTagChar c = false) :
    header? ('@' :: (name ++ rest)) = some (name, rest) := by
  have hmargin : List.dropWhile isMargin ('@' :: (name ++ rest)) = '@' :: (name ++ rest) := rfl
  simp only [header?, hmargin, takeWhile_append_of_head? hname hrest,
    dropWhile_append_of_head? hname hrest]
  rw [if_neg (by simpa using hne)]

namespace RawTag

/-- The number of blank lines above the line that follows `ls`, if `blanks` stand above `ls`. -/
def blanksBehind (blanks : Nat) (ls : List Text) : Nat :=
  ls.foldl (fun n l => if l.isBlank then n + 1 else 0) blanks

/-- Lines behind a line with text have no blank lines above them. -/
theorem blanksBehind_zero {ls : List Text} (h : ∀ l ∈ ls.getLast?, l.isBlank = false) :
    blanksBehind 0 ls = 0 := by
  cases ls using List.reverseRecOn with
  | nil => rfl
  | append_singleton ls l =>
    have hl := h l (by simp)
    simp [blanksBehind, hl]

/-- A header line starts a tag, to which the lines up to the next header belong. -/
theorem group_cons_of_header {l name rest : Text} (h : header? l = some (name, rest))
    (blanks line : Nat) (ls : List Text) :
    group blanks line (l :: ls) =
      ([], ⟨name, line, rest, (group 0 (line + 1) ls).1, blanks⟩ :: (group 0 (line + 1) ls).2) := by
  simp [group, h, isBlank_of_header? h]

/-- Lines that are no headers go in front of the first tag. -/
theorem group_append {ls : List Text} (h : ∀ l ∈ ls, isHeader l = false) (blanks line : Nat)
    (ms : List Text) :
    group blanks line (ls ++ ms) =
      (ls ++ (group (blanksBehind blanks ls) (line + ls.length) ms).1,
        (group (blanksBehind blanks ls) (line + ls.length) ms).2) := by
  induction ls generalizing blanks line with
  | nil => rfl
  | cons l ls ih =>
    have hl : header? l = none := by simpa [isHeader] using h l List.mem_cons_self
    have hls := ih (fun m hm => h m (List.mem_cons_of_mem _ hm))
      (if l.isBlank then blanks + 1 else 0) (line + 1)
    have hlength : line + 1 + ls.length = line + (l :: ls).length := by
      rw [List.length_cons]
      omega
    rw [hlength] at hls
    simp only [List.cons_append, group, hl, hls]
    rfl

/-- A header line behind other lines starts one more tag; the tags in front of it stay as they
are. -/
theorem group_concat {l name rest : Text} (h : header? l = some (name, rest)) (blanks line : Nat)
    (ls : List Text) :
    group blanks line (ls ++ [l]) =
      ((group blanks line ls).1, (group blanks line ls).2 ++
        [⟨name, line + ls.length, rest, [], blanksBehind blanks ls⟩]) := by
  induction ls generalizing blanks line with
  | nil => exact group_cons_of_header h blanks line []
  | cons m ls ih =>
    have hls := ih (if m.isBlank then blanks + 1 else 0) (line + 1)
    have hlength : line + 1 + ls.length = line + (m :: ls).length := by
      rw [List.length_cons]
      omega
    rw [hlength] at hls
    simp only [List.cons_append, group, hls]
    cases header? m <;> rfl

/-- The lines up to the first header belong to an earlier tag. -/
theorem group_fst (blanks line : Nat) (ls : List Text) :
    (group blanks line ls).1 = ls.takeWhile (!isHeader ·) := by
  induction ls generalizing blanks line with
  | nil => rfl
  | cons l ls ih =>
    cases hheader : header? l with
    | none => simp [group, isHeader, hheader, ih]
    | some found => simp [group, isHeader, hheader]

/-- A tag comes from a header line, has the number of that line, and its continuation lines are the
lines that follow, up to the next header. -/
theorem exists_line_of_mem_group {t : RawTag} {blanks line : Nat} {ls : List Text}
    (h : t ∈ (group blanks line ls).2) :
    ∃ front l behind, ls = front ++ l :: behind ∧ t.line = line + front.length ∧
      header? l = some (t.name, t.rest) ∧ t.continuation = behind.takeWhile (!isHeader ·) := by
  induction ls generalizing blanks line with
  | nil => cases h
  | cons l ls ih =>
    have hbehind : t ∈ (group (if l.isBlank then blanks + 1 else 0) (line + 1) ls).2 →
        ∃ front l' behind, l :: ls = front ++ l' :: behind ∧ t.line = line + front.length ∧
          header? l' = some (t.name, t.rest) ∧
          t.continuation = behind.takeWhile (!isHeader ·) := by
      intro hmem
      obtain ⟨front, l', behind, rfl, hline, hheader, hcont⟩ := ih hmem
      refine ⟨l :: front, l', behind, rfl, ?_, hheader, hcont⟩
      rw [hline, List.length_cons]
      omega
    simp only [group] at h
    split at h
    · next name rest hheader =>
      rcases List.mem_cons.mp h with rfl | hmem
      · exact ⟨[], l, ls, rfl, rfl, hheader, group_fst _ _ ls⟩
      · exact hbehind hmem
    · exact hbehind h

/-- Grouping makes tags in the order of their lines. -/
theorem pairwise_line_group (blanks line : Nat) (ls : List Text) :
    (group blanks line ls).2.Pairwise (·.line < ·.line) := by
  induction ls generalizing blanks line with
  | nil => exact List.Pairwise.nil
  | cons l ls ih =>
    simp only [group]
    split
    · refine List.pairwise_cons.mpr ⟨fun t ht => ?_, ih _ _⟩
      obtain ⟨front, _, _, _, hline, _⟩ := exists_line_of_mem_group ht
      dsimp only
      omega
    · exact ih _ _

end RawTag

end DocCheck
