import DocCheck.Block

/-!
# What searches find

A search is determined by the tokens of its range: a forward search finds the first wanted one, a
backward search the last wanted one. Line ends are counted, so that the tests for a line end and
for a blank line become bounds on one number.
-/

namespace DocCheck.Stream

variable {s : Stream} {want : Token → Bool} {wantKind : Kind → Bool} {start stop i : Nat}

/-- A token of a slice is the token of the stream at the shifted position. -/
theorem getElem?_slice (s : Stream) (start stop k : Nat) :
    (s.slice start stop)[k]? = if start + k < stop then s.tokens[start + k]? else none := by
  simp only [slice, List.getElem?_drop, List.getElem?_take]

/-- A slice ends with the stream at the latest. -/
theorem length_slice (s : Stream) (start stop : Nat) :
    (s.slice start stop).length = min stop s.size - start := by
  simp only [slice, List.length_drop, List.length_take, size]

/-- A slice holds the tokens between its bounds. -/
theorem mem_slice {t : Token} :
    t ∈ s.slice start stop ↔ ∃ j, start ≤ j ∧ j < stop ∧ s.tokens[j]? = some t := by
  simp only [List.mem_iff_getElem?, getElem?_slice]
  constructor
  · rintro ⟨k, hk⟩
    split at hk
    · next hstop => exact ⟨start + k, by omega, hstop, hk⟩
    · cases hk
  · rintro ⟨j, hj, hstop, ht⟩
    obtain ⟨k, rfl⟩ := Nat.exists_eq_add_of_le hj
    exact ⟨k, by rwa [if_pos hstop]⟩

private theorem findIdx?_eq_some_iff {α : Type} {xs : List α} {p : α → Bool} {k : Nat} :
    xs.findIdx? p = some k ↔ xs[k]?.any p ∧ ∀ j, j < k → xs[j]?.any p = false := by
  rw [List.findIdx?_eq_some_iff_getElem]
  constructor
  · rintro ⟨hk, hp, hbefore⟩
    refine ⟨by simpa [List.getElem?_eq_getElem hk] using hp, fun j hj => ?_⟩
    have := hbefore j hj
    simpa [List.getElem?_eq_getElem (Nat.lt_trans hj hk)] using this
  · rintro ⟨hp, hbefore⟩
    obtain ⟨x, hx, hpx⟩ := (Option.any_eq_true _ _).mp hp
    obtain ⟨hk, rfl⟩ := List.getElem?_eq_some_iff.mp hx
    refine ⟨hk, hpx, fun j hj => ?_⟩
    have := hbefore j hj
    simpa [List.getElem?_eq_getElem (Nat.lt_trans hj hk)] using this

/-- A forward search finds the first wanted token of its range. -/
theorem first?_eq_some_iff :
    s.first? want start stop = some i ↔
      start ≤ i ∧ i < stop ∧ s.tokens[i]?.any want ∧
        ∀ j, start ≤ j → j < i → s.tokens[j]?.any want = false := by
  simp only [first?, Option.map_eq_some_iff, findIdx?_eq_some_iff, getElem?_slice]
  constructor
  · rintro ⟨k, ⟨hk, hbefore⟩, rfl⟩
    by_cases hstop : start + k < stop
    · refine ⟨Nat.le_add_right _ _, hstop, by simpa only [if_pos hstop] using hk, ?_⟩
      intro j hj hjk
      obtain ⟨d, rfl⟩ := Nat.exists_eq_add_of_le hj
      have := hbefore d (by omega)
      rwa [if_pos (by omega)] at this
    · simp only [if_neg hstop, Option.any_none, Bool.false_eq_true] at hk
  · rintro ⟨hi, hstop, hwant, hbefore⟩
    obtain ⟨k, rfl⟩ := Nat.exists_eq_add_of_le hi
    refine ⟨k, ⟨by rwa [if_pos hstop], fun j hj => ?_⟩, rfl⟩
    rw [if_pos (by omega)]
    exact hbefore (start + j) (by omega) (by omega)

/-- A forward search fails when no token of its range is wanted. -/
theorem first?_eq_none_iff :
    s.first? want start stop = none ↔
      ∀ j, start ≤ j → j < stop → s.tokens[j]?.any want = false := by
  simp only [first?, Option.map_eq_none_iff, List.findIdx?_eq_none_iff, mem_slice]
  constructor
  · intro hall j hj hstop
    cases ht : s.tokens[j]? with
    | none => rfl
    | some t => exact hall t ⟨j, hj, hstop, ht⟩
  · rintro hall t ⟨j, hj, hstop, ht⟩
    have := hall j hj hstop
    rwa [ht, Option.any_some] at this

/-- Counted from its end, a slice holds the tokens of the stream in reverse. -/
theorem getElem?_reverse_slice (s : Stream) {start stop k : Nat}
    (hk : start + k < min stop s.size) :
    (s.slice start stop).reverse[k]? = s.tokens[min stop s.size - 1 - k]? := by
  have hlength := length_slice s start stop
  rw [List.getElem?_reverse (by omega), getElem?_slice, if_pos (by omega), hlength]
  congr 1
  omega

/-- A backward search finds the last wanted token of its range. -/
theorem last?_eq_some_iff :
    s.last? want start stop = some i ↔
      start ≤ i ∧ i < stop ∧ s.tokens[i]?.any want ∧
        ∀ j, i < j → j < stop → s.tokens[j]?.any want = false := by
  have hsize (j : Nat) (hj : s.tokens[j]?.any want = true) : j < s.size := by
    obtain ⟨t, ht, _⟩ := (Option.any_eq_true _ _).mp hj
    exact (List.getElem?_eq_some_iff.mp ht).1
  simp only [last?, Option.map_eq_some_iff, findIdx?_eq_some_iff]
  constructor
  · rintro ⟨k, ⟨hk, hbefore⟩, rfl⟩
    have hlt : start + k < min stop s.size := by
      obtain ⟨t, ht, _⟩ := (Option.any_eq_true _ _).mp hk
      have := (List.getElem?_eq_some_iff.mp ht).1
      rw [List.length_reverse, length_slice] at this
      omega
    rw [getElem?_reverse_slice s hlt] at hk
    refine ⟨by omega, by omega, hk, fun j hj hstop => ?_⟩
    -- A wanted token behind the one found would have been met earlier from the end.
    cases hwant : s.tokens[j]?.any want with
    | false => rfl
    | true =>
      have hjs := hsize j hwant
      have := hbefore (min stop s.size - 1 - j) (by omega)
      rw [getElem?_reverse_slice s (by omega)] at this
      rw [show min stop s.size - 1 - (min stop s.size - 1 - j) = j by omega] at this
      exact hwant.symm.trans this
  · rintro ⟨hi, hstop, hwant, hafter⟩
    have his := hsize i hwant
    refine ⟨min stop s.size - 1 - i, ⟨?_, fun j hj => ?_⟩, by omega⟩
    · rw [getElem?_reverse_slice s (by omega)]
      rwa [show min stop s.size - 1 - (min stop s.size - 1 - i) = i by omega]
    · rw [getElem?_reverse_slice s (by omega)]
      exact hafter _ (by omega) (by omega)

/-- A backward search fails when no token of its range is wanted. -/
theorem last?_eq_none_iff :
    s.last? want start stop = none ↔
      ∀ j, start ≤ j → j < stop → s.tokens[j]?.any want = false := by
  rw [← first?_eq_none_iff]
  simp only [last?, first?, Option.map_eq_none_iff, List.findIdx?_eq_none_iff, List.mem_reverse]

/-- The next token of a wanted kind is the first one at or behind the start. -/
theorem next?_eq_some_iff :
    s.next? wantKind start = some i ↔
      start ≤ i ∧ (s.kindAt? i).any wantKind ∧
        ∀ j, start ≤ j → j < i → (s.kindAt? j).any wantKind = false := by
  simp only [next?, first?_eq_some_iff, kindAt?, Option.any_map]
  constructor
  · rintro ⟨hstart, _, hwant, hbefore⟩
    exact ⟨hstart, hwant, hbefore⟩
  · rintro ⟨hstart, hwant, hbefore⟩
    obtain ⟨t, ht, _⟩ := (Option.any_eq_true _ _).mp hwant
    exact ⟨hstart, (List.getElem?_eq_some_iff.mp ht).1, hwant, hbefore⟩

/-- There is no next token of some kind exactly if none follows. -/
theorem next?_eq_none_iff :
    s.next? wantKind start = none ↔
      ∀ j, start ≤ j → (s.kindAt? j).any wantKind = false := by
  simp only [next?, first?_eq_none_iff, kindAt?, Option.any_map]
  constructor
  · intro hall j hj
    by_cases hsize : j < s.size
    · exact hall j hj hsize
    · rw [List.getElem?_eq_none (Nat.le_of_not_lt hsize), Option.any_none]
  · exact fun hall j hj _ => hall j hj

/-- The previous token of a wanted kind is the last one in front of the end. -/
theorem previous?_eq_some_iff :
    s.previous? wantKind stop = some i ↔
      i < stop ∧ (s.kindAt? i).any wantKind ∧
        ∀ j, i < j → j < stop → (s.kindAt? j).any wantKind = false := by
  simp only [previous?, last?_eq_some_iff, kindAt?, Option.any_map, Nat.zero_le, true_and]

/-- There is no previous token of some kind exactly if none stands in front. -/
theorem previous?_eq_none_iff :
    s.previous? wantKind stop = none ↔
      ∀ j, j < stop → (s.kindAt? j).any wantKind = false := by
  simp only [previous?, last?_eq_none_iff, kindAt?, Option.any_map, Nat.zero_le, true_implies]

/-- The positions found one after the other are all positions of a wanted kind, in order. -/
theorem positionsFrom_eq_filter (s : Stream) (wantKind : Kind → Bool) (start : Nat) :
    s.positionsFrom wantKind start =
      (List.range' start (s.size - start)).filter fun i => (s.kindAt? i).any wantKind := by
  fun_induction s.positionsFrom wantKind start with
  | case1 start hnone =>
    symm
    rw [List.filter_eq_nil_iff]
    intro j hj
    have hstart := (List.mem_range'_1.mp hj).1
    rw [next?_eq_none_iff.mp hnone j hstart]
    exact Bool.false_ne_true
  | case2 start i hsome _ ih =>
    obtain ⟨hstart, hwant, hbefore⟩ := next?_eq_some_iff.mp hsome
    have hsize := (first?_bounds hsome).2.2
    have hskip : (List.range' start (i - start)).filter (fun j => (s.kindAt? j).any wantKind) =
        [] := by
      rw [List.filter_eq_nil_iff]
      intro j hj
      obtain ⟨hlow, hhigh⟩ := List.mem_range'_1.mp hj
      rw [hbefore j hlow (by omega)]
      exact Bool.false_ne_true
    have hsplit : List.range' start (s.size - start) =
        List.range' start (i - start) ++ i :: List.range' (i + 1) (s.size - (i + 1)) := by
      rw [show s.size - start = (i - start) + (s.size - (i + 1) + 1) by omega,
        ← List.range'_append_1, show start + (i - start) = i by omega, List.range'_succ]
    rw [hsplit, List.filter_append, hskip, List.nil_append, List.filter_cons, if_pos hwant, ih]

/-- The positions of some kind, by testing all positions in order. -/
theorem positions_eq_filter (s : Stream) (wantKind : Kind → Bool) :
    s.positions wantKind = (List.range s.size).filter fun i => (s.kindAt? i).any wantKind := by
  rw [positions, positionsFrom_eq_filter, Nat.sub_zero, List.range_eq_range']

/-- A slice is cut into two at a position between its ends. -/
theorem slice_append (s : Stream) {start mid stop : Nat} (hstart : start ≤ mid)
    (hstop : mid ≤ stop) : s.slice start stop = s.slice start mid ++ s.slice mid stop := by
  have hmid : (s.tokens.take stop).take mid = s.tokens.take mid := by
    rw [List.take_take, Nat.min_eq_left hstop]
  simp only [slice]
  conv =>
    lhs
    rw [← List.take_append_drop mid (s.tokens.take stop), hmid, List.drop_append]
  by_cases hsize : mid ≤ s.tokens.length
  · rw [List.length_take, Nat.min_eq_left hsize, show start - mid = 0 by omega]
    rfl
  · have hrest : (s.tokens.take stop).drop mid = [] := by
      apply List.drop_eq_nil_of_le
      rw [List.length_take]
      omega
    simp only [hrest, List.drop_nil]

/-- The first token of a slice and the tokens behind it. -/
theorem slice_eq_cons (s : Stream) {t : Token} (ht : s.tokens[i]? = some t) (hstop : i < stop) :
    s.slice i stop = t :: s.slice (i + 1) stop := by
  have hlength : i < s.tokens.length := (List.getElem?_eq_some_iff.mp ht).1
  have hlt : i < (s.tokens.take stop).length := by rw [List.length_take]; omega
  have hget : (s.tokens.take stop)[i]? = some t := by rw [List.getElem?_take, if_pos hstop, ht]
  rw [slice, List.drop_eq_getElem_cons hlt, slice]
  congr 1
  exact (List.getElem?_eq_some_iff.mp hget).2

/-- The number of tokens in the given range that are line ends on their own. -/
def breaks (s : Stream) (start stop : Nat) : Nat := (s.slice start stop).countP s.isLineBreak

/-- There is a line break exactly if line breaks are counted. -/
theorem hasLineBreak_iff : s.hasLineBreak start stop ↔ 0 < s.breaks start stop := by
  simp only [hasLineBreak, first?, Option.isSome_map, List.findIdx?_isSome, breaks,
    List.countP_pos_iff, List.any_eq_true]

/-- A blank line is the same as two line ends. -/
theorem hasBlankLine_iff : s.hasBlankLine start stop ↔ 2 ≤ s.breaks start stop := by
  cases hfirst : s.first? s.isLineBreak start stop with
  | none =>
    have hbreak : ¬ 0 < s.breaks start stop := by
      rw [← hasLineBreak_iff]
      simp [hasLineBreak, hfirst]
    simp only [hasBlankLine, hfirst, Bool.false_eq_true, false_iff]
    omega
  | some i =>
    obtain ⟨hstart, hstop, hwant, hbefore⟩ := first?_eq_some_iff.mp hfirst
    obtain ⟨t, ht, hbreak⟩ := (Option.any_eq_true _ _).mp hwant
    have hnone : s.breaks start i = 0 := by
      have hsearch := first?_eq_none_iff.mpr hbefore
      have hbreak : ¬ 0 < s.breaks start i := by
        rw [← hasLineBreak_iff]
        simp [hasLineBreak, hsearch]
      omega
    have hcount : s.breaks start stop = s.breaks start i + (s.breaks (i + 1) stop + 1) := by
      simp only [breaks]
      rw [slice_append s hstart (Nat.le_of_lt hstop), List.countP_append,
        slice_eq_cons s ht hstop, List.countP_cons_of_pos hbreak]
    simp only [hasBlankLine, hfirst, hasLineBreak_iff]
    omega

end DocCheck.Stream
