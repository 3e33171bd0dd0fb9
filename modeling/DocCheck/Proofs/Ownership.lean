import DocCheck.Proofs.Stream.Search
import Mathlib.Data.List.Basic

/-!
# The owner of a lone comment

A lone comment between the open tag and the first class-like declaration is claimed from both
sides: once when the comment of the file is looked for, once when the comment of the declaration
is. Each side decides by the number of line ends behind the comment, but the file stops counting at
an `abstract`. This file says what each side decides, and from that exactly when they agree on one
owner.
-/

namespace DocCheck

/-- Whether a documentation comment was found. -/
def Placement.isFound : Placement → Bool
  | .found _ => true
  | _ => false

namespace Stream

/-- The tokens from `first` to `last` are the only documentation comment of the stream. Its only
open tag is its first token, only white space stands between the two, and only white space and
modifiers stand between the comment and the first class-like keyword, which is at `c`. -/
structure LoneComment (s : Stream) (first last c : Nat) : Prop where
  openTag : ∀ i, s.kindAt? i = some .openTag ↔ i = 0
  docComment : ∀ i, s.kindAt? i = some .docComment ↔ first ≤ i ∧ i ≤ last
  nonempty : first ≤ last
  spaceBefore : ∀ i, 0 < i → i < first → s.kindAt? i = some .whitespace
  modifiersBehind : ∀ i, last < i → i < c →
    s.kindAt? i = some .whitespace ∨ s.kindAt? i = some .abstractWord ∨
      s.kindAt? i = some .finalWord
  keyword : last < c ∧ (s.kindAt? c).any Kind.isClassLike
  firstKeyword : ∀ i, i < c → (s.kindAt? i).any Kind.isClassLike = false

/-- The number of line ends that the file side counts: those behind the comment that ends at
`last`, up to the first `abstract` or else the keyword at `c`. -/
def breaksBeforeAbstract (s : Stream) (last c : Nat) : Nat :=
  ((s.slice (last + 1) c).takeWhile (·.kind ≠ .abstractWord)).countP s.isLineBreak

namespace LoneComment

variable {s : Stream} {first last c : Nat}

/-- A lone comment stands behind an open tag, so not at the start of the stream. -/
theorem first_pos (h : s.LoneComment first last c) : 0 < first := by
  have hopen := (h.openTag 0).mpr rfl
  have hdoc := (h.docComment first).mpr ⟨Nat.le_refl _, h.nonempty⟩
  rcases Nat.eq_zero_or_pos first with rfl | hpos
  · simp [hopen] at hdoc
  · exact hpos

/-- A lone comment starts with a token of a documentation comment. -/
theorem kindAt?_first (h : s.LoneComment first last c) : s.kindAt? first = some .docComment :=
  (h.docComment first).mpr ⟨Nat.le_refl _, h.nonempty⟩

/-- A lone comment ends with a token of a documentation comment. -/
theorem kindAt?_last (h : s.LoneComment first last c) : s.kindAt? last = some .docComment :=
  (h.docComment last).mpr ⟨h.nonempty, Nat.le_refl _⟩

/-- Up to the keyword every position holds a token, and only the comment is documentation. -/
theorem exists_kind (h : s.LoneComment first last c) {i : Nat} (hi : i ≤ c)
    (hout : i < first ∨ last < i) : ∃ k, s.kindAt? i = some k ∧ k ≠ .docComment := by
  have hsize : i < s.tokens.length := by
    obtain ⟨k, hk, _⟩ := (Option.any_eq_true _ _).mp h.keyword.2
    obtain ⟨t, ht, _⟩ := Option.map_eq_some_iff.mp hk
    have := (List.getElem?_eq_some_iff.mp ht).1
    omega
  refine ⟨s.tokens[i].kind, by rw [kindAt?, List.getElem?_eq_getElem hsize]; rfl, ?_⟩
  intro hkind
  have hdoc : s.kindAt? i = some .docComment := by
    rw [kindAt?, List.getElem?_eq_getElem hsize, Option.map_some, hkind]
  have := (h.docComment i).mp hdoc
  omega

/-- Behind the comment its run ends. -/
theorem blockEnd_eq (h : s.LoneComment first last c) : s.blockEnd first = last := by
  have hlast := h.keyword.1
  obtain ⟨k, hk, hne⟩ := h.exists_kind (i := last + 1) (by omega) (by omega)
  have hnext : s.next? (· ≠ .docComment) (first + 1) = some (last + 1) := by
    have hle := h.nonempty
    refine next?_eq_some_iff.mpr ⟨by omega, by simp [hk, hne], fun j hj hlt => ?_⟩
    simp [(h.docComment j).mpr ⟨by omega, by omega⟩]
  simp only [blockEnd, hnext]
  omega

/-- In front of the comment its run starts. -/
theorem previous?_first (h : s.LoneComment first last c) {i : Nat} (hfirst : first ≤ i)
    (hlast : i ≤ last) : s.previous? (· ≠ .docComment) i = some (first - 1) := by
  have hpos := h.first_pos
  have hc := h.keyword.1
  obtain ⟨k, hk, hne⟩ := h.exists_kind (i := first - 1) (by omega) (by omega)
  refine previous?_eq_some_iff.mpr ⟨by omega, by simp [hk, hne], fun j hj hlt => ?_⟩
  simp [(h.docComment j).mpr ⟨by omega, by omega⟩]

/-- The file side looks at the comment, whatever marks an editor directive. -/
theorem fileCandidate?_eq (h : s.LoneComment first last c) (marker : Text) :
    s.fileCandidate? 0 marker = some first := by
  have hpos := h.first_pos
  have hnext : s.next? (· ≠ .whitespace) (0 + 1) = some first := by
    refine next?_eq_some_iff.mpr ⟨hpos, by simp [h.kindAt?_first], fun j hj hlt => ?_⟩
    simp [h.spaceBefore j (by omega) hlt]
  have hdirective : s.tokens[first]?.any (isDirective marker) = false := by
    obtain ⟨t, ht, hkind⟩ := Option.map_eq_some_iff.mp h.kindAt?_first
    simp [ht, isDirective, hkind]
  simp only [fileCandidate?, hnext, hdirective, Bool.false_eq_true, if_false]

/-- The class side looks at the comment. -/
theorem previous?_keyword (h : s.LoneComment first last c) :
    s.previous? (!leadsToClass ·) c = some last := by
  refine previous?_eq_some_iff.mpr ⟨h.keyword.1, by simp [h.kindAt?_last, leadsToClass], ?_⟩
  intro j hj hlt
  rcases h.modifiersBehind j hj hlt with hkind | hkind | hkind <;>
    simp [hkind, leadsToClass]

/-- The declaration that the file side meets first is at the first `abstract` behind the comment,
or else at the keyword, and the line ends in front of it are those up to an `abstract`. -/
theorem exists_declaration (h : s.LoneComment first last c) :
    ∃ d, s.next? followsFileComment (last + 1) = some d ∧ s.kindAt? d ≠ some .docComment ∧
      s.breaks (last + 1) d = s.breaksBeforeAbstract last c := by
  have hlast := h.keyword.1
  obtain ⟨kc, hkc, hclass⟩ := (Option.any_eq_true _ _).mp h.keyword.2
  have hfollows : followsFileComment kc := by
    cases kc <;> first | rfl | cases hclass
  cases hnext : s.next? followsFileComment (last + 1) with
  | none =>
    have := next?_eq_none_iff.mp hnext c (by omega)
    simp [hkc, hfollows] at this
  | some d =>
    obtain ⟨hd, hwant, hbefore⟩ := next?_eq_some_iff.mp hnext
    have hdc : d ≤ c := by
      by_contra hlt
      have := hbefore c (by omega) (by omega)
      simp [hkc, hfollows] at this
    refine ⟨d, rfl, ?_, ?_⟩
    · obtain ⟨k, hk, hne⟩ := h.exists_kind hdc (by omega)
      simpa [hk] using hne
    -- Up to `d` no token is an `abstract`, and the rest is empty or starts with one.
    · have hfront : ∀ t ∈ s.slice (last + 1) d, decide (t.kind ≠ .abstractWord) = true := by
        intro t ht
        obtain ⟨j, hj, hjd, htj⟩ := mem_slice.mp ht
        have := hbefore j hj hjd
        simp only [kindAt?, htj, Option.map_some, Option.any_some] at this
        rw [decide_eq_true_eq]
        rintro habstract
        simp [habstract, followsFileComment] at this
      have hrest : (s.slice d c).takeWhile (·.kind ≠ .abstractWord) = [] := by
        rcases Nat.lt_or_eq_of_le hdc with hlt | rfl
        · obtain ⟨k, hk, hfollow⟩ := (Option.any_eq_true _ _).mp hwant
          have habstract : k = .abstractWord := by
            rcases h.modifiersBehind d (by omega) hlt with hkind | hkind | hkind
            · obtain rfl := Option.some.inj (hkind.symm.trans hk)
              cases hfollow
            · exact Option.some.inj (hk.symm.trans hkind)
            · obtain rfl := Option.some.inj (hkind.symm.trans hk)
              cases hfollow
          obtain ⟨t, ht, rfl⟩ := Option.map_eq_some_iff.mp hk
          rw [slice_eq_cons s ht hlt]
          simp [habstract]
        · simp [slice]
      rw [breaks, breaksBeforeAbstract, slice_append s hd hdc,
        List.takeWhile_append_of_pos hfront, hrest, List.append_nil]

/-- The file gives the comment up exactly when one line end follows it. -/
theorem fileBlock_eq (h : s.LoneComment first last c) (marker : Text) :
    s.fileBlock 0 marker =
      if s.breaksBeforeAbstract last c = 1 then .missing 1 else .found (s.block first last) := by
  obtain ⟨d, hnext, hdoc, hbreaks⟩ := h.exists_declaration
  have hopen : s.previous? (· = .openTag) 0 = none :=
    previous?_eq_none_iff.mpr fun j hj => absurd hj (Nat.not_lt_zero j)
  have hsits : s.sitsOnDeclaration last ↔ s.breaksBeforeAbstract last c = 1 := by
    simp only [sitsOnDeclaration, hnext, Bool.and_eq_true, decide_eq_true_eq, Bool.not_eq_true',
      ← Bool.not_eq_true, hasLineBreak_iff, hasBlankLine_iff, ← hbreaks]
    constructor
    · rintro ⟨⟨_, hone⟩, hblank⟩
      omega
    · intro hone
      exact ⟨⟨hdoc, by omega⟩, by omega⟩
  simp only [fileBlock, hopen, Option.isSome_none, Bool.false_eq_true, if_false,
    h.fileCandidate?_eq, h.kindAt?_first, h.blockEnd_eq, hsits, Nat.zero_add]

/-- The declaration gives the comment up exactly when two line ends follow it. -/
theorem classBlock_eq (h : s.LoneComment first last c) :
    s.classBlock c =
      if 2 ≤ s.breaks (last + 1) c then .missing (c + 1) else .found (s.block first last) := by
  have hpos := h.first_pos
  have hstart : s.blockStart last = first := by
    rw [blockStart, h.previous?_first h.nonempty (Nat.le_refl _)]
    exact Nat.sub_add_cancel hpos
  have hearlier : s.previous? (·.isClassLike) c = none := previous?_eq_none_iff.mpr h.firstKeyword
  have halone : s.previous? (· = .docComment) (first - 1) = none := by
    refine previous?_eq_none_iff.mpr fun j hj => ?_
    have hlast := h.keyword.1
    have hle := h.nonempty
    obtain ⟨k, hk, hne⟩ := h.exists_kind (i := j) (by omega) (by omega)
    simp [hk, hne]
  have hfile : s.isFileComment first last c ↔ 2 ≤ s.breaks (last + 1) c := by
    simp only [isFileComment, hearlier, h.previous?_first (Nat.le_refl _) h.nonempty, halone,
      Option.isNone_none, Bool.true_and, hasBlankLine_iff]
  simp only [classBlock, h.previous?_keyword, h.kindAt?_last, hstart, hfile]

/-- The file side counts no more line ends than there are up to the keyword. -/
theorem breaksBeforeAbstract_le (s : Stream) (last c : Nat) :
    s.breaksBeforeAbstract last c ≤ s.breaks (last + 1) c :=
  (List.takeWhile_sublist _).countP_le

end LoneComment

/-- A lone comment has exactly one owner when two or more line ends follow it, unless exactly one
of them stands in front of an `abstract`, and when a single line end follows it in front of any
`abstract`. Without a line end in front of the declaration or its `abstract` it has two owners,
and where an `abstract` comes between the first two line ends it has none. -/
theorem exactly_one_owner_iff {s : Stream} {first last c : Nat} (h : s.LoneComment first last c)
    (marker : Text) :
    (Xor ((s.fileBlock 0 marker).isFound = true) ((s.classBlock c).isFound = true) ↔
      (2 ≤ s.breaks (last + 1) c ∧ s.breaksBeforeAbstract last c ≠ 1) ∨
        (s.breaks (last + 1) c = 1 ∧ s.breaksBeforeAbstract last c = 1)) ∧
    ((s.fileBlock 0 marker).isFound ∧ (s.classBlock c).isFound ↔
      s.breaks (last + 1) c ≤ 1 ∧ s.breaksBeforeAbstract last c = 0) ∧
    ((s.fileBlock 0 marker).isFound = false ∧ (s.classBlock c).isFound = false ↔
      2 ≤ s.breaks (last + 1) c ∧ s.breaksBeforeAbstract last c = 1) := by
  have hle := LoneComment.breaksBeforeAbstract_le s last c
  have hfile : (s.fileBlock 0 marker).isFound ↔ s.breaksBeforeAbstract last c ≠ 1 := by
    rw [h.fileBlock_eq]
    split <;> simp_all [Placement.isFound]
  have hclass : (s.classBlock c).isFound ↔ s.breaks (last + 1) c ≤ 1 := by
    rw [h.classBlock_eq]
    split
    · simp only [Placement.isFound, Bool.false_eq_true, false_iff]
      omega
    · simp only [Placement.isFound, true_iff]
      omega
  simp only [Xor, ← Bool.not_eq_true, hfile, hclass]
  omega

/-- With the modifier on a line of its own neither side takes the comment. -/
example :
    let s : Stream := ⟨"\n", [⟨.openTag, "<?php\n", 1⟩, ⟨.docComment, "/** Foo. */", 2⟩,
      ⟨.whitespace, "\n", 2⟩, ⟨.abstractWord, "abstract", 3⟩, ⟨.whitespace, "\n", 3⟩,
      ⟨.classWord, "class", 4⟩]⟩
    s.fileBlock 0 "vim:" = .missing 1 ∧ s.classBlock 5 = .missing 6 := by decide

/-- A comment on the line of its declaration. -/
def inlineComment : Stream where
  eol := "\n"
  tokens := [⟨.openTag, "<?php\n", 1⟩, ⟨.docComment, "/** Foo. */", 2⟩, ⟨.whitespace, " ", 2⟩,
    ⟨.classWord, "class", 2⟩]

/-- A comment on the line of its declaration has two owners. -/
theorem inlineComment_two_owners :
    inlineComment.LoneComment 1 1 3 ∧ (inlineComment.fileBlock 0 "vim:").isFound ∧
      (inlineComment.classBlock 3).isFound := by
  have hbeyond (i : Nat) : inlineComment.kindAt? (i + 4) = none := rfl
  have hlone : inlineComment.LoneComment 1 1 3 := by
    refine ⟨fun i => ?_, fun i => ?_, by decide, fun i => ?_, fun i => ?_, by decide, by decide⟩
    all_goals match i with
      | 0 | 1 | 2 | 3 => decide
      | i + 4 => rw [hbeyond]; simp
  exact ⟨hlone, (exactly_one_owner_iff hlone "vim:").2.1.mpr (by decide)⟩

end Stream

end DocCheck
