import DocCheck.Text.Basic
import Mathlib.Data.List.Basic
import Mathlib.Data.List.Infix
import Mathlib.Tactic.Common

/-!
# Splitting and joining

Splitting a text at a separator and joining the pieces again gives the text back. The converse
needs a separator whose occurrences cannot overlap: its first character must not come back in it.
Line ends are of this kind, and only for them is the number of separators the number of places
where one was written.
-/

namespace DocCheck.Text

/-- A separator whose first character does not come back in it, so that no two occurrences
overlap. -/
def HeadUnique (sep : Text) : Prop := ∃ x xs, sep = x :: xs ∧ x ∉ xs

/-- The line ends in use: a line feed, or a carriage return and a line feed. -/
def IsLineEnd (eol : Text) : Prop := eol = "\n" ∨ eol = "\r\n"

/-- A line end starts with a character that it does not repeat. -/
theorem IsLineEnd.headUnique {eol : Text} (h : IsLineEnd eol) : HeadUnique eol := by
  rcases h with rfl | rfl
  · exact ⟨'\n', [], rfl, by decide⟩
  · exact ⟨'\r', ['\n'], rfl, by decide⟩

/-- A line end is blank. -/
theorem IsLineEnd.isBlank {eol : Text} (h : IsLineEnd eol) : eol.isBlank := by
  rcases h with rfl | rfl <;> decide

/-- A text with a first character is not empty. -/
theorem HeadUnique.ne_nil {sep : Text} (h : HeadUnique sep) : sep ≠ [] := by
  obtain ⟨x, xs, rfl, -⟩ := h
  exact List.cons_ne_nil x xs

/-- Trimming the end leaves the start of a text. -/
theorem trimEnd_isPrefix (t : Text) : t.trimEnd <+: t := by
  have hsuffix : t.reverse.dropWhile isSpace <:+ t.reverse := List.dropWhile_suffix _
  simpa [trimEnd] using List.reverse_prefix.mpr hsuffix

/-- Trimming brings no new characters in. -/
theorem trim_subset (t : Text) : t.trim ⊆ t :=
  List.Subset.trans (trimEnd_isPrefix _).subset (List.dropWhile_suffix _).subset

/-- What follows a lead is the end of the text. -/
theorem after?_eq_some_iff {t lead rest : Text} :
    t.after? lead = some rest ↔ t = lead ++ rest := by
  induction lead generalizing t with
  | nil => simp [after?]
  | cons l lead ih =>
    cases t with
    | nil => simp [after?]
    | cons c t =>
      simp only [after?]
      split
      · next hl => rw [ih, hl, List.cons_append, List.cons.injEq, eq_self, true_and]
      · next hl =>
        simp only [reduceCtorEq, List.cons_append, List.cons.injEq, false_iff, not_and]
        exact fun hc => absurd hc.symm hl

/-- Something follows a lead exactly if the text starts with it. -/
theorem isSome_after?_iff {t lead : Text} : (t.after? lead).isSome ↔ lead <+: t := by
  simp only [Option.isSome_iff_exists, after?_eq_some_iff]
  exact exists_congr fun rest => eq_comm

/-- Nothing follows a lead exactly if the text does not start with it. -/
theorem after?_eq_none_iff {t lead : Text} : t.after? lead = none ↔ ¬ lead <+: t := by
  rw [← isSome_after?_iff, Bool.not_eq_true, Option.isSome_eq_false_iff, Option.isNone_iff_eq_none]

/-- The search for a part finds exactly the parts. -/
theorem contains_iff_infix {t part : Text} : t.contains part ↔ part <:+: t := by
  induction t with
  | nil => simp [contains]
  | cons c t ih =>
    rw [contains, Bool.or_eq_true, ih, List.isPrefixOf_iff_prefix, List.infix_cons_iff]

/-- Nothing stands behind a last separator only if there is none. -/
theorem afterLast?_eq_none_iff {t sep : Text} : t.afterLast? sep = none ↔ ¬ sep <:+: t := by
  induction t with
  | nil => simp [afterLast?]
  | cons c t ih =>
    rw [afterLast?, Option.or_eq_none_iff, ih, List.infix_cons_iff, not_or, and_comm,
      after?_eq_none_iff]

/-- No parts make an empty text. -/
@[simp] theorem join_nil (sep : Text) : join sep [] = [] := rfl

/-- One part needs no separator. -/
@[simp] theorem join_singleton (sep p : Text) : join sep [p] = p := by simp [join]

/-- A separator follows the first of several parts. -/
theorem join_cons (sep p : Text) {ps : List Text} (hps : ps ≠ []) :
    join sep (p :: ps) = p ++ (sep ++ join sep ps) := by
  obtain ⟨q, qs, rfl⟩ := List.exists_cons_of_ne_nil hps
  simp [join]

/-- A separator stands between two runs of parts. -/
theorem join_append (sep : Text) {ps qs : List Text} (hps : ps ≠ []) (hqs : qs ≠ []) :
    join sep (ps ++ qs) = join sep ps ++ (sep ++ join sep qs) := by
  induction ps with
  | nil => exact absurd rfl hps
  | cons p ps ih =>
    by_cases hrest : ps = []
    · rw [hrest, List.singleton_append, join_cons _ _ hqs, join_singleton]
    · rw [List.cons_append, join_cons _ _ (by simp [hrest]), ih hrest, join_cons _ _ hrest]
      simp only [List.append_assoc]

/-- One repetition more stands at the end. -/
theorem times_succ (t : Text) (n : Nat) : t.times (n + 1) = t.times n ++ t := by
  rw [times, List.replicate_succ', List.flatten_append, List.flatten_singleton, times]

/-- A text in front of the first line is one in front of all lines. -/
theorem join_append_cons (sep t u : Text) (us : List Text) :
    join sep ((t ++ u) :: us) = t ++ join sep (u :: us) := by
  by_cases hus : us = []
  · rw [hus, join_singleton, join_singleton]
  · rw [join_cons _ _ hus, join_cons _ _ hus, List.append_assoc]

/-- Empty lines in front are separators. -/
theorem join_replicate_nil_append (sep : Text) (n : Nat) (p : Text) (ps : List Text) :
    join sep (List.replicate n [] ++ p :: ps) = sep.times n ++ join sep (p :: ps) := by
  induction n with
  | zero => rfl
  | succ n ih =>
    rw [List.replicate_succ, List.cons_append, join_cons _ _ (by simp), ih, List.nil_append,
      times, times, List.replicate_succ, List.flatten_cons, List.append_assoc]

/-- A character in front of the first part is in front of the whole. -/
theorem join_modifyHead (sep : Text) (c : Char) {ps : List Text} (hps : ps ≠ []) :
    join sep (ps.modifyHead (c :: ·)) = c :: join sep ps := by
  obtain ⟨p, ps, rfl⟩ := List.exists_cons_of_ne_nil hps
  by_cases hrest : ps = []
  · simp [hrest]
  · rw [List.modifyHead_cons, join_cons _ _ hrest, join_cons _ _ hrest, List.cons_append]

section Splitting

variable {sep : Text}

/-- Characters that belong to the last separator are passed over. -/
theorem pieces_skip (sep : Text) (skip : Nat) (t : Text) :
    pieces sep skip t = pieces sep 0 (t.drop skip) := by
  induction skip generalizing t with
  | zero => rfl
  | succ skip ih =>
    cases t with
    | nil => rfl
    | cons c t => rw [pieces, ih, List.drop_succ_cons]

/-- An empty text has one empty part. -/
theorem splitOn_nil (hsep : sep ≠ []) : splitOn [] sep = [[]] := by
  rw [splitOn, if_neg (by simpa using hsep)]
  rfl

/-- A separator in front cuts off an empty piece. -/
theorem splitOn_sep_append (hsep : sep ≠ []) (t : Text) :
    splitOn (sep ++ t) sep = [] :: splitOn t sep := by
  obtain ⟨x, xs, rfl⟩ := List.exists_cons_of_ne_nil hsep
  simp only [splitOn, List.isEmpty_cons, Bool.false_eq_true, if_false, List.cons_append]
  rw [pieces, if_pos (by simp), pieces_skip]
  simp

/-- A character that starts no separator goes to the first piece. -/
theorem splitOn_cons (hsep : sep ≠ []) {c : Char} {t : Text} (h : ¬ sep <+: c :: t) :
    splitOn (c :: t) sep = (splitOn t sep).modifyHead (c :: ·) := by
  have hempty : ¬ sep.isEmpty := by simpa using hsep
  simp only [splitOn, if_neg hempty]
  rw [pieces, if_neg (by simpa using h)]

/-- A text is built from separators and from characters that start none. -/
theorem splitOn_induction (hsep : sep ≠ []) {motive : Text → Prop} (nil : motive [])
    (found : ∀ t, motive t → motive (sep ++ t))
    (other : ∀ c t, ¬ sep <+: c :: t → motive t → motive (c :: t)) (t : Text) : motive t := by
  induction hn : t.length using Nat.strong_induction_on generalizing t with
  | _ n ih =>
    by_cases hprefix : sep <+: t
    · obtain ⟨rest, rfl⟩ := hprefix
      have hpos : 0 < sep.length := List.length_pos_of_ne_nil hsep
      rw [List.length_append] at hn
      exact found rest (ih rest.length (by omega) rest rfl)
    · cases t with
      | nil => exact nil
      | cons c t =>
        rw [List.length_cons] at hn
        exact other c t hprefix (ih t.length (by omega) t rfl)

/-- Every text has a part. -/
theorem splitOn_ne_nil (hsep : sep ≠ []) (t : Text) : splitOn t sep ≠ [] := by
  induction t using splitOn_induction hsep with
  | nil => rw [splitOn_nil hsep]; exact List.cons_ne_nil _ _
  | found t _ => rw [splitOn_sep_append hsep]; exact List.cons_ne_nil _ _
  | other c t hprefix ih =>
    rw [splitOn_cons hsep hprefix]
    simpa using ih

/-- The first piece is what the text starts with. -/
theorem head?_splitOn_prefix (hsep : sep ≠ []) {t p : Text} (h : p ∈ (splitOn t sep).head?) :
    p <+: t := by
  induction t using splitOn_induction hsep generalizing p with
  | nil =>
    rw [splitOn_nil hsep] at h
    cases h
    exact List.prefix_rfl
  | found t _ =>
    rw [splitOn_sep_append hsep] at h
    cases h
    exact List.nil_prefix
  | other c t hprefix ih =>
    rw [splitOn_cons hsep hprefix, List.head?_modifyHead] at h
    obtain ⟨q, hq, rfl⟩ := Option.map_eq_some_iff.mp h
    exact List.cons_prefix_cons.mpr ⟨rfl, ih hq⟩

/-- Joining the pieces of a text gives it back. -/
theorem join_splitOn (hsep : sep ≠ []) (t : Text) : join sep (splitOn t sep) = t := by
  induction t using splitOn_induction hsep with
  | nil => rw [splitOn_nil hsep, join_singleton]
  | found t ih =>
    rw [splitOn_sep_append hsep, join_cons _ _ (splitOn_ne_nil hsep t), ih, List.nil_append]
  | other c t hprefix ih =>
    rw [splitOn_cons hsep hprefix, join_modifyHead _ _ (splitOn_ne_nil hsep t), ih]

/-- A piece of a text is a part of it. -/
theorem infix_of_mem_splitOn {t sep p : Text} (hsep : sep ≠ []) (h : p ∈ t.splitOn sep) :
    p <:+: t := by
  induction t using splitOn_induction hsep generalizing p with
  | nil =>
    rw [splitOn_nil hsep, List.mem_singleton] at h
    exact h ▸ List.infix_rfl
  | found t ih =>
    rw [splitOn_sep_append hsep] at h
    rcases List.mem_cons.mp h with rfl | h
    · exact List.nil_infix
    · exact (ih h).trans (List.suffix_append _ _).isInfix
  | other c t hprefix ih =>
    obtain ⟨q, qs, hqs⟩ := List.exists_cons_of_ne_nil (splitOn_ne_nil hsep t)
    rw [splitOn_cons hsep hprefix, hqs, List.modifyHead_cons] at h
    rcases List.mem_cons.mp h with rfl | h
    · have hq : q <+: t := head?_splitOn_prefix hsep (by rw [hqs]; rfl)
      exact (List.cons_prefix_cons.mpr ⟨rfl, hq⟩).isInfix
    · exact (ih (hqs ▸ List.mem_cons_of_mem _ h)).trans (List.suffix_cons _ _).isInfix

/-- No piece contains the separator. -/
theorem not_infix_of_mem_splitOn (hsep : sep ≠ []) {t p : Text} (h : p ∈ splitOn t sep) :
    ¬ sep <:+: p := by
  have hnil : ¬ sep <:+: [] := fun hpart => hsep (List.infix_nil.mp hpart)
  induction t using splitOn_induction hsep generalizing p with
  | nil =>
    rw [splitOn_nil hsep, List.mem_singleton] at h
    rwa [h]
  | found t ih =>
    rw [splitOn_sep_append hsep] at h
    rcases List.mem_cons.mp h with rfl | h
    · exact hnil
    · exact ih h
  | other c t hprefix ih =>
    rw [splitOn_cons hsep hprefix] at h
    obtain ⟨q, qs, hqs⟩ := List.exists_cons_of_ne_nil (splitOn_ne_nil hsep t)
    rw [hqs, List.modifyHead_cons] at h
    rw [hqs] at ih
    rcases List.mem_cons.mp h with rfl | h
    · rw [List.infix_cons_iff]
      rintro (hfront | hbehind)
      · have hq : q <+: t := head?_splitOn_prefix hsep (by rw [hqs]; rfl)
        exact hprefix (hfront.trans (List.cons_prefix_cons.mpr ⟨rfl, hq⟩))
      · exact ih List.mem_cons_self hbehind
    · exact ih (List.mem_cons_of_mem _ h)

/-- A text without the separator is one piece. -/
theorem splitOn_of_not_infix (hsep : sep ≠ []) {t : Text} (h : ¬ sep <:+: t) :
    splitOn t sep = [t] := by
  induction t with
  | nil => exact splitOn_nil hsep
  | cons c t ih =>
    rw [List.infix_cons_iff, not_or] at h
    rw [splitOn_cons hsep h.1, ih h.2, List.modifyHead_cons]

end Splitting

section Counting

variable {sep : Text}

/-- A separator that starts in one text and ends in the next is the first text and a part of the
second. -/
theorem exists_overlap {c : Char} {t u : Text} (h : ¬ sep <+: c :: t) (hu : sep <+: c :: (t ++ u)) :
    ∃ r, sep = c :: (t ++ r) ∧ r <+: u ∧ r ≠ [] := by
  rw [← List.cons_append] at hu
  rcases List.prefix_or_prefix_of_prefix hu (List.prefix_append (c :: t) u) with hle | hge
  · exact absurd hle h
  · obtain ⟨r, rfl⟩ := hge
    refine ⟨r, rfl, (List.prefix_append_right_inj _).mp hu, ?_⟩
    rintro rfl
    exact h (by rw [List.append_nil])

/-- Splitting at a separator in the middle splits the two parts. -/
theorem splitOn_append_sep (hsep : HeadUnique sep) (t u : Text) :
    splitOn (t ++ (sep ++ u)) sep = splitOn t sep ++ splitOn u sep := by
  have hne := hsep.ne_nil
  induction t using splitOn_induction hne with
  | nil => rw [List.nil_append, splitOn_sep_append hne, splitOn_nil hne, List.singleton_append]
  | found t ih =>
    rw [List.append_assoc, splitOn_sep_append hne, ih, splitOn_sep_append hne, List.cons_append]
  | other c t hprefix ih =>
    -- A separator cannot start in `t` and end in the next one: its first character would recur.
    have hprefix' : ¬ sep <+: c :: (t ++ (sep ++ u)) := by
      intro hover
      obtain ⟨r, hr, hru, hrne⟩ := exists_overlap hprefix hover
      obtain ⟨x, xs, rfl, hx⟩ := hsep
      obtain ⟨y, r, rfl⟩ := List.exists_cons_of_ne_nil hrne
      obtain ⟨rfl, rfl⟩ := List.cons_eq_cons.mp hr
      obtain ⟨rfl, -⟩ := List.cons_prefix_cons.mp hru
      exact hx (by simp)
    obtain ⟨p, ps, hps⟩ := List.exists_cons_of_ne_nil (splitOn_ne_nil hne t)
    rw [List.cons_append, splitOn_cons hne hprefix', ih, splitOn_cons hne hprefix, hps,
      List.cons_append, List.modifyHead_cons, List.modifyHead_cons, List.cons_append]

/-- The pieces of joined texts are the texts, if none of them contains the separator. -/
theorem splitOn_join (hsep : HeadUnique sep) {ps : List Text} (hps : ps ≠ [])
    (h : ∀ p ∈ ps, ¬ sep <:+: p) : splitOn (join sep ps) sep = ps := by
  induction ps with
  | nil => exact absurd rfl hps
  | cons p ps ih =>
    have hp : splitOn p sep = [p] := splitOn_of_not_infix hsep.ne_nil (h p List.mem_cons_self)
    by_cases hrest : ps = []
    · rw [hrest, join_singleton, hp]
    · rw [join_cons _ _ hrest, splitOn_append_sep hsep, hp,
        ih hrest fun q hq => h q (List.mem_cons_of_mem _ hq), List.singleton_append]

/-- There is one part more than there are separators. -/
theorem length_splitOn (hsep : sep ≠ []) (t : Text) : (splitOn t sep).length = count t sep + 1 := by
  have := List.length_pos_of_ne_nil (splitOn_ne_nil hsep t)
  rw [count]
  omega

/-- A separator in front counts. -/
theorem count_sep_append (hsep : sep ≠ []) (t : Text) : count (sep ++ t) sep = count t sep + 1 := by
  rw [← length_splitOn hsep, count, splitOn_sep_append hsep, List.length_cons]
  rfl

/-- Written `n` times, a separator is counted `n` times. -/
theorem count_times_append (hsep : sep ≠ []) (n : Nat) (t : Text) :
    count (sep.times n ++ t) sep = n + count t sep := by
  induction n with
  | zero => rw [times, List.replicate_zero, List.flatten_nil, List.nil_append, Nat.zero_add]
  | succ n ih =>
    rw [times, List.replicate_succ, List.flatten_cons, List.append_assoc, count_sep_append hsep,
      ← times, ih]
    omega

/-- A repeated separator counts as often as it is repeated. -/
theorem count_times (hsep : sep ≠ []) (n : Nat) : (sep.times n).count sep = n := by
  have h := count_times_append hsep n []
  rw [List.append_nil] at h
  rw [h, count, splitOn_nil hsep]
  rfl

/-- A character that does not start a separator does not count. -/
theorem count_cons (hsep : sep ≠ []) {c : Char} {t : Text} (h : ¬ sep <+: c :: t) :
    count (c :: t) sep = count t sep := by
  rw [count, splitOn_cons hsep h, List.length_modifyHead, count]

/-- Joined texts without the separator have one separator less than there are texts. -/
theorem count_join (hsep : HeadUnique sep) {ps : List Text} (hps : ps ≠ [])
    (h : ∀ p ∈ ps, ¬ sep <:+: p) : count (join sep ps) sep = ps.length - 1 := by
  rw [count, splitOn_join hsep hps h]

/-- A text without the first character of the separator adds no separator in front. -/
theorem count_append_of_not_mem {x : Char} {xs t : Text} (h : x ∉ t) (u : Text) :
    count (t ++ u) (x :: xs) = count u (x :: xs) := by
  induction t with
  | nil => rfl
  | cons c t ih =>
    have hc : ¬ x :: xs <+: c :: (t ++ u) := fun hprefix =>
      h (by rw [(List.cons_prefix_cons.mp hprefix).1]; exact List.mem_cons_self)
    rw [List.cons_append, count_cons (List.cons_ne_nil x xs) hc]
    exact ih fun hmem => h (List.mem_cons_of_mem _ hmem)

/-- A text without the first character of the separator in front makes no further separator. -/
theorem infix_of_infix_append {x : Char} {xs t u : Text} (h : x ∉ t)
    (hpart : x :: xs <:+: t ++ u) : x :: xs <:+: u := by
  induction t with
  | nil => exact hpart
  | cons c t ih =>
    rw [List.cons_append, List.infix_cons_iff] at hpart
    rcases hpart with hfront | hbehind
    · exact absurd (by rw [(List.cons_prefix_cons.mp hfront).1]; exact List.mem_cons_self) h
    · exact ih (fun hmem => h (List.mem_cons_of_mem _ hmem)) hbehind

/-- Behind the last separator stands a text without one. -/
theorem afterLast?_append (hsep : HeadUnique sep) (t : Text) {u : Text} (hu : ¬ sep <:+: u) :
    afterLast? (t ++ (sep ++ u)) sep = some u := by
  induction t with
  | nil =>
    have hafter : after? (sep ++ u) sep = some u := after?_eq_some_iff.mpr rfl
    obtain ⟨x, xs, rfl, hx⟩ := hsep
    have hnone : afterLast? (xs ++ u) (x :: xs) = none :=
      afterLast?_eq_none_iff.mpr fun hpart => hu (infix_of_infix_append hx hpart)
    rw [List.nil_append, List.cons_append, afterLast?, hnone, Option.none_or]
    exact hafter
  | cons c t ih => rw [List.cons_append, afterLast?, ih, Option.some_or]

/-- A text that contains the separator is cut at its last place. -/
theorem exists_afterLast (hsep : sep ≠ []) {t : Text} (h : sep <:+: t) :
    ∃ front behind, t = front ++ (sep ++ behind) ∧ ¬ sep <:+: behind := by
  induction t with
  | nil => exact absurd (List.infix_nil.mp h) hsep
  | cons c t ih =>
    by_cases hpart : sep <:+: t
    · obtain ⟨front, behind, rfl, hbehind⟩ := ih hpart
      exact ⟨c :: front, behind, rfl, hbehind⟩
    · rcases List.infix_cons_iff.mp h with ⟨behind, hbehind⟩ | hinfix
      · refine ⟨[], behind, hbehind.symm, fun hover => hpart (hover.trans ?_)⟩
        obtain ⟨x, xs, rfl⟩ := List.exists_cons_of_ne_nil hsep
        have htail : xs ++ behind = t := (List.cons.inj hbehind).2
        exact ⟨xs, [], by rw [List.append_nil]; exact htail⟩
      · exact absurd hinfix hpart

/-- Two texts together have at least the separators of each. -/
theorem count_add_le (hsep : HeadUnique sep) (t u : Text) :
    count t sep + count u sep ≤ count (t ++ u) sep := by
  have hne := hsep.ne_nil
  have hnil : count [] sep = 0 := by rw [count, splitOn_nil hne]; rfl
  induction t using splitOn_induction hne with
  | nil => rw [hnil, List.nil_append, Nat.zero_add]
  | found t ih =>
    rw [List.append_assoc, count_sep_append hne, count_sep_append hne]
    omega
  | other c t hprefix ih =>
    by_cases hover : sep <+: c :: (t ++ u)
    · -- The separator across the border counts once; what it takes of `u` holds no separator.
      obtain ⟨r, hr, ⟨u, rfl⟩, hrne⟩ := exists_overlap hprefix hover
      have hshort : ¬ sep <:+: c :: t := by
        intro hpart
        have hle := hpart.length_le
        have hpos := List.length_pos_of_ne_nil hrne
        rw [hr, List.length_cons, List.length_cons, List.length_append] at hle
        omega
      have hleft : count (c :: t) sep = 0 := by
        rw [count, splitOn_of_not_infix hne hshort]
        rfl
      have hright : count (r ++ u) sep = count u sep := by
        obtain ⟨x, xs, rfl, hx⟩ := hsep
        obtain ⟨rfl, rfl⟩ := List.cons_eq_cons.mp hr
        exact count_append_of_not_mem (fun hmem => hx (List.mem_append_right _ hmem)) u
      have hboth : count (c :: t ++ (r ++ u)) sep = count u sep + 1 := by
        rw [← count_sep_append hne, hr, List.cons_append, List.cons_append, List.append_assoc]
      omega
    · rw [List.cons_append, count_cons hne hover, count_cons hne hprefix]
      exact ih

end Counting

end DocCheck.Text
