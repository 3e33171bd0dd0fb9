import DocCheck.Proofs.Text.Split
import Mathlib.Data.List.DropRight
import Mathlib.Data.List.TakeWhile

/-!
# Trimming and cutting

A list is cut where a test fails for the first time. A text is trimmed already if no white space
stands at its ends, and this is all that trimming looks at. Lines that are trimmed and not empty at
the ends of a list are joined to a trimmed text.
-/

namespace DocCheck

section Cutting

variable {α : Type} {p : α → Bool} {xs ys : List α}

/-- A list is cut between elements that pass a test and one that does not. -/
theorem takeWhile_append_of_head? (hxs : ∀ x ∈ xs, p x) (hys : ∀ y ∈ ys.head?, p y = false) :
    (xs ++ ys).takeWhile p = xs := by
  rw [List.takeWhile_append_of_pos hxs]
  cases ys with
  | nil => simp
  | cons y ys => simp [hys y rfl]

/-- All of the first list is dropped, and nothing of the second. -/
theorem dropWhile_append_of_head? (hxs : ∀ x ∈ xs, p x) (hys : ∀ y ∈ ys.head?, p y = false) :
    (xs ++ ys).dropWhile p = ys := by
  rw [List.dropWhile_append_of_pos hxs]
  cases ys with
  | nil => rfl
  | cons y ys => simp [hys y rfl]

/-- Every list can be cut so: a front that passes the test, and a rest that starts with an element
that does not. -/
theorem exists_span (p : α → Bool) (xs : List α) :
    ∃ front behind, xs = front ++ behind ∧ (∀ x ∈ front, p x) ∧
      ∀ x ∈ behind.head?, p x = false := by
  refine ⟨xs.takeWhile p, xs.dropWhile p, List.takeWhile_append_dropWhile.symm,
    fun x hx => List.mem_takeWhile_imp hx, fun x hx => ?_⟩
  have hhead := List.head?_dropWhile_not p xs
  rwa [hx] at hhead

/-- A list in which the test fails somewhere is cut there, whatever follows. -/
theorem takeWhile_append_of_exists (h : ∃ x ∈ xs, p x = false) (ys : List α) :
    (xs ++ ys).takeWhile p = xs.takeWhile p := by
  obtain ⟨x, hx, hpx⟩ := h
  rw [List.takeWhile_append, if_neg]
  intro hlength
  rw [← (List.takeWhile_prefix p).eq_of_length hlength] at hx
  rw [List.mem_takeWhile_imp hx] at hpx
  cases hpx

/-- Dropping ends in the first list. -/
theorem dropWhile_append_of_exists (h : ∃ x ∈ xs, p x = false) (ys : List α) :
    (xs ++ ys).dropWhile p = xs.dropWhile p ++ ys := by
  obtain ⟨x, hx, hpx⟩ := h
  rw [List.dropWhile_append, if_neg]
  rw [List.isEmpty_iff, List.dropWhile_eq_nil_iff]
  intro hall
  rw [hall x hx] at hpx
  cases hpx

/-- A list is cut at the first place of an element. -/
theorem takeWhile_ne_append [BEq α] [LawfulBEq α] {a : α} (h : a ∉ xs) (ys : List α) :
    (xs ++ a :: ys).takeWhile (· != a) = xs ∧ (xs ++ a :: ys).dropWhile (· != a) = a :: ys := by
  have hxs : ∀ x ∈ xs, (x != a) = true := fun x hx => bne_iff_ne.mpr fun heq => h (heq ▸ hx)
  have hys : ∀ y ∈ (a :: ys).head?, (y != a) = false := by simp
  exact ⟨takeWhile_append_of_head? hxs hys, dropWhile_append_of_head? hxs hys⟩

/-- Nothing is dropped exactly if the first element does not pass. -/
theorem dropWhile_eq_self_iff_head? : xs.dropWhile p = xs ↔ ∀ x ∈ xs.head?, p x = false := by
  rw [List.dropWhile_eq_self_iff]
  cases xs <;> simp

/-- Behind an element that fails the test, elements are dropped from the end only. -/
theorem rdropWhile_append_cons {x : α} (hx : p x = false) (xs ys : List α) :
    (xs ++ x :: ys).rdropWhile p = xs ++ x :: ys.rdropWhile p := by
  induction ys using List.reverseRecOn with
  | nil => exact List.rdropWhile_concat_neg p xs x (by simp [hx])
  | append_singleton ys y ih =>
    rw [← List.cons_append, ← List.append_assoc, List.rdropWhile_concat, List.rdropWhile_concat, ih]
    split
    · rfl
    · simp

/-- Dropping from the end keeps the places of the elements that fail the test. -/
theorem getElem?_rdropWhile_iff {x : α} {i : Nat} (hx : p x = false) :
    (xs.rdropWhile p)[i]? = some x ↔ xs[i]? = some x := by
  have hsplit : xs.rdropWhile p ++ xs.rtakeWhile p = xs := List.rdropWhile_append_rtakeWhile
  constructor
  · intro h
    obtain ⟨hi, -⟩ := List.getElem?_eq_some_iff.mp h
    rw [← hsplit, List.getElem?_append_left hi, h]
  · intro h
    rw [← hsplit, List.getElem?_append] at h
    split at h
    · exact h
    · rw [List.mem_rtakeWhile_imp (List.mem_of_getElem? h)] at hx
      cases hx

end Cutting

namespace Text

/-- Nothing is trimmed at the start exactly if no space is first. -/
theorem trimStart_eq_self_iff {t : Text} : t.trimStart = t ↔ ∀ c ∈ t.head?, isSpace c = false :=
  dropWhile_eq_self_iff_head?

/-- Nothing is trimmed at the end exactly if no space is last. -/
theorem trimEnd_eq_self_iff {t : Text} : t.trimEnd = t ↔ ∀ c ∈ t.getLast?, isSpace c = false := by
  rw [trimEnd, List.reverse_eq_iff, dropWhile_eq_self_iff_head?, List.head?_reverse]

/-- What is trimmed at its end protects what stands in front. -/
theorem trimEnd_append {t u : Text} (hu : u ≠ []) (h : u.trimEnd = u) :
    (t ++ u).trimEnd = t ++ u := by
  rw [trimEnd_eq_self_iff, List.getLast?_append_of_ne_nil _ hu]
  exact trimEnd_eq_self_iff.mp h

/-- Trimming the end leaves nothing of blank texts only. -/
theorem trimEnd_eq_nil_iff {t : Text} : t.trimEnd = [] ↔ t.isBlank := by
  rw [isBlank, List.all_eq_true]
  exact List.rdropWhile_eq_nil_iff

/-- The end of a text that is trimmed at its end is trimmed there. -/
theorem trimEnd_of_suffix {t u : Text} (h : t <:+ u) (hu : u.trimEnd = u) : t.trimEnd = t := by
  obtain ⟨front, rfl⟩ := h
  by_cases ht : t = []
  · rw [ht]
    rfl
  · rw [trimEnd_eq_self_iff, List.getLast?_append_of_ne_nil _ ht] at hu
    exact trimEnd_eq_self_iff.mpr hu

/-- Trimming the end takes off a blank text. -/
theorem exists_blank_of_trimEnd (t : Text) :
    ∃ blank, t = t.trimEnd ++ blank ∧ blank.isBlank := by
  refine ⟨(t.reverse.takeWhile isSpace).reverse, ?_, ?_⟩
  · rw [trimEnd, ← List.reverse_append, List.takeWhile_append_dropWhile, List.reverse_reverse]
  · rw [isBlank, List.all_reverse]
    exact List.all_takeWhile

/-- The end is trimmed once and for all. -/
theorem trimEnd_trimEnd (t : Text) : t.trimEnd.trimEnd = t.trimEnd :=
  List.rdropWhile_idempotent isSpace t

/-- White space behind a text does not change what is left of it. -/
theorem trimEnd_append_of_isBlank (t : Text) {blank : Text} (h : blank.isBlank) :
    (t ++ blank).trimEnd = t.trimEnd := by
  rw [trimEnd, List.reverse_append, List.dropWhile_append_of_pos, trimEnd]
  intro c hc
  exact List.all_eq_true.mp h c (List.mem_reverse.mp hc)

/-- A text in front of one that shows something is left as it is. -/
theorem trimEnd_append_of_not_isBlank (t : Text) {u : Text} (h : u.isBlank = false) :
    (t ++ u).trimEnd = t ++ u.trimEnd := by
  have hne : (u.reverse.dropWhile isSpace).isEmpty = false := by
    rw [List.isEmpty_eq_false_iff, ← List.reverse_ne_nil_iff]
    intro hnil
    rw [trimEnd_eq_nil_iff.mp hnil] at h
    cases h
  rw [trimEnd, List.reverse_append, List.dropWhile_append, hne, if_neg Bool.false_ne_true,
    List.reverse_append, List.reverse_reverse, trimEnd]

/-- A text that ends visibly is left as it is, whatever follows. -/
theorem trimEnd_append_of_trimEnd_eq {t : Text} (h : t.trimEnd = t) (u : Text) :
    (t ++ u).trimEnd = t ++ u.trimEnd := by
  cases hu : u.isBlank with
  | true => rw [trimEnd_append_of_isBlank t hu, h, trimEnd_eq_nil_iff.mpr hu, List.append_nil]
  | false => exact trimEnd_append_of_not_isBlank t hu

/-- A lead that ends visibly is found before and after trimming. -/
theorem after?_trimEnd {lead : Text} (h : lead.trimEnd = lead) (t : Text) :
    t.trimEnd.after? lead = (t.after? lead).map trimEnd := by
  cases hafter : t.after? lead with
  | some rest =>
    rw [after?_eq_some_iff.mp hafter, trimEnd_append_of_trimEnd_eq h, Option.map_some,
      after?_eq_some_iff]
  | none =>
    rw [after?_eq_none_iff] at hafter
    rw [Option.map_none, after?_eq_none_iff]
    exact fun hlead => hafter (hlead.trans (trimEnd_isPrefix t))

/-- A text is trimmed if no white space stands at its ends. -/
theorem trim_eq_self_iff {t : Text} :
    t.trim = t ↔ t.trimStart = t ∧ t.trimEnd = t := by
  constructor
  · intro h
    have hend : t.trim.length ≤ t.trimStart.length := (trimEnd_isPrefix _).length_le
    have hsuffix : t.trimStart <:+ t := List.dropWhile_suffix _
    have hstart : t.trimStart = t := hsuffix.eq_of_length_le (by rwa [h] at hend)
    rw [trim, hstart] at h
    exact ⟨hstart, h⟩
  · rintro ⟨hstart, hend⟩
    rw [trim, hstart, hend]

/-- White space in front does not change the trimmed text. -/
theorem trim_append_of_isBlank {blank : Text} (h : blank.isBlank) (t : Text) :
    trim (blank ++ t) = trim t := by
  rw [trim, trimStart, List.dropWhile_append_of_pos (List.all_eq_true.mp h)]
  rfl

/-- It does not matter which end is trimmed first. -/
theorem trimStart_trimEnd (t : Text) : t.trimEnd.trimStart = t.trim := by
  obtain ⟨lead, rest, rfl, hlead, hrest⟩ := exists_span isSpace t
  have hdrop : trimStart (lead ++ rest) = rest := dropWhile_append_of_head? hlead hrest
  rw [trim, hdrop]
  cases hblank : isBlank rest with
  | true =>
    have hall : isBlank (lead ++ rest) := by
      rw [isBlank, List.all_append, Bool.and_eq_true]
      exact ⟨List.all_eq_true.mpr hlead, hblank⟩
    rw [trimEnd_eq_nil_iff.mpr hall, trimEnd_eq_nil_iff.mpr hblank]
    rfl
  | false =>
    rw [trimEnd_append_of_not_isBlank lead hblank]
    refine dropWhile_append_of_head? hlead fun c hc => hrest c ?_
    obtain ⟨behind, hbehind⟩ := trimEnd_isPrefix rest
    rw [← hbehind, List.head?_append, Option.mem_def.mp hc]
    rfl

/-- Trimming both ends trims the end as well. -/
theorem trim_trimEnd (t : Text) : t.trimEnd.trim = t.trim := by
  rw [← trimStart_trimEnd, trimEnd_trimEnd, trimStart_trimEnd]

/-- Both ends are trimmed once and for all. -/
theorem trim_trim (t : Text) : t.trim.trim = t.trim := by
  refine trim_eq_self_iff.mpr ⟨?_, trimEnd_trimEnd _⟩
  rw [← trimStart_trimEnd]
  exact List.dropWhile_idempotent _ _

/-- Trimming both ends leaves nothing of blank texts only. -/
theorem trim_eq_nil_iff {t : Text} : t.trim = [] ↔ t.isBlank := by
  rw [trim, trimEnd, List.reverse_eq_nil_iff, List.dropWhile_eq_nil_iff, isBlank,
    List.all_eq_true]
  simp only [List.mem_reverse, trimStart]
  constructor
  · intro h c hc
    rw [← List.takeWhile_append_dropWhile (p := isSpace) (l := t), List.mem_append] at hc
    exact hc.elim List.mem_takeWhile_imp (h c)
  · exact fun h c hc => h c ((List.dropWhile_sublist _).subset hc)

/-- A gap is blank. -/
theorem isBlank_of_isGap {t : Text} (h : ∀ c ∈ t, isGap c) : t.isBlank :=
  List.all_eq_true.mpr fun c hc => isSpace_of_isGap (h c hc)

/-- A text that is not empty and has no white space at its end shows something. -/
theorem isBlank_eq_false {t : Text} (hne : t ≠ []) (h : t.trimEnd = t) : t.isBlank = false := by
  have hc := List.getLast?_eq_some_getLast hne
  rw [isBlank, List.all_eq_false]
  exact ⟨_, List.mem_of_getLast? hc, by simp [trimEnd_eq_self_iff.mp h _ hc]⟩

/-- Joined parts start like the first one. -/
theorem head?_join {sep t : Text} (ht : t ≠ []) (ts : List Text) :
    (join sep (t :: ts)).head? = t.head? := by
  by_cases hts : ts = []
  · rw [hts, join_singleton]
  · rw [join_cons _ _ hts, List.head?_append_of_ne_nil _ ht]

/-- Joined parts end like the last one. -/
theorem getLast?_join {sep : Text} {ts : List Text} {t : Text} (hlast : ts.getLast? = some t)
    (ht : t ≠ []) : (join sep ts).getLast? = t.getLast? := by
  induction ts with
  | nil => cases hlast
  | cons u us ih =>
    by_cases hus : us = []
    · rw [hus, List.getLast?_singleton, Option.some.injEq] at hlast
      rw [hus, hlast, join_singleton]
    · rw [List.getLast?_cons_of_ne_nil hus] at hlast
      have hjoin := ih hlast
      have hne : join sep us ≠ [] := by
        intro hnil
        rw [hnil] at hjoin
        exact ht (List.getLast?_eq_none_iff.mp hjoin.symm)
      rw [join_cons _ _ hus, List.getLast?_append_of_ne_nil _ (by simp [hne]),
        List.getLast?_append_of_ne_nil _ hne, hjoin]

/-- Trimming joined lines that are trimmed leaves out the blank lines at their end. -/
theorem trimEnd_join {sep : Text} (hsep : sep.isBlank) {ts : List Text}
    (htrim : ∀ t ∈ ts, t.trimEnd = t) :
    (join sep ts).trimEnd = join sep (ts.rdropWhile isBlank) := by
  induction ts using List.reverseRecOn with
  | nil => rfl
  | append_singleton ts t ih =>
    have ht : t.trimEnd = t := htrim t (by simp)
    cases hblank : t.isBlank with
    | true =>
      obtain rfl : t = [] := ht.symm.trans (trimEnd_eq_nil_iff.mpr hblank)
      rw [List.rdropWhile_concat_pos _ _ _ rfl, ← ih fun u hu => htrim u (by simp [hu])]
      by_cases hts : ts = []
      · rw [hts]
        rfl
      · rw [join_append _ hts (by simp), join_singleton, List.append_nil,
          trimEnd_append_of_isBlank _ hsep]
    | false =>
      have hne : t ≠ [] := by
        rintro rfl
        cases hblank
      rw [List.rdropWhile_concat_neg _ _ _ (by simp [hblank]), trimEnd_eq_self_iff,
        getLast?_join (List.getLast?_concat ..) hne]
      exact trimEnd_eq_self_iff.mp ht

/-- Trimmed lines are joined to a trimmed text, if the first and the last one are not empty. -/
theorem trim_join {sep : Text} {ts : List Text} (htrim : ∀ t ∈ ts, t.trim = t)
    (hfirst : ts.head? ≠ some []) (hlast : ts.getLast? ≠ some []) :
    (join sep ts).trim = join sep ts := by
  cases ts with
  | nil => rfl
  | cons t us =>
    obtain ⟨u, hu⟩ : ∃ u, (t :: us).getLast? = some u :=
      ⟨_, List.getLast?_eq_some_getLast (List.cons_ne_nil t us)⟩
    have ht : t ≠ [] := fun h => hfirst (by rw [h]; rfl)
    have hne : u ≠ [] := fun h => hlast (by rw [hu, h])
    have hstart := (trim_eq_self_iff.mp (htrim t List.mem_cons_self)).1
    have hend := (trim_eq_self_iff.mp (htrim u (List.mem_of_getLast? hu))).2
    rw [trim_eq_self_iff, trimStart_eq_self_iff, trimEnd_eq_self_iff, head?_join ht,
      getLast?_join hu hne]
    exact ⟨trimStart_eq_self_iff.mp hstart, trimEnd_eq_self_iff.mp hend⟩

end Text

end DocCheck
