import DocCheck.Check
import DocCheck.Proofs.Comment.Margin
import DocCheck.Proofs.Stream.Search

/-!
# Blocks and their lines

A block that was found is a range of tokens of the stream with their text. Where each of these
tokens is one physical line, the stripped lines of the block and its tokens correspond: a line with
a number is a part of the token that many positions behind the first one.
-/

namespace DocCheck

/-- A block is the text of a range of tokens of the stream. -/
structure Block.IsIn (b : Block) (s : Stream) : Prop where
  text_eq : b.text = s.textBetween b.first b.last
  first_le_last : b.first ≤ b.last
  last_lt_size : b.last < s.size

/-- A block that can be examined was read. -/
theorem Block.parse_of_read_ok {b : Block} {v : Vocabulary} {scope : Scope} {c : Comment}
    (h : b.read v scope = .ok c) : Comment.parse b.text v scope.eol = .ok c := by
  unfold Block.read at h
  split at h
  · cases h
  · next c' hparse =>
    split at h
    · cases h
    · cases h
      exact hparse

namespace Stream

variable {s : Stream}

/-- A token with a kind is in the stream. -/
theorem lt_size_of_kindAt? {i : Nat} {k : Kind} (h : s.kindAt? i = some k) : i < s.size := by
  obtain ⟨t, ht, -⟩ := Option.map_eq_some_iff.mp h
  exact (List.getElem?_eq_some_iff.mp ht).1

/-- A block ends behind its start and inside the stream. -/
theorem blockEnd_bounds {first : Nat} (h : first < s.size) :
    first ≤ s.blockEnd first ∧ s.blockEnd first < s.size := by
  unfold blockEnd
  split
  · next i hi =>
    have := first?_bounds hi
    omega
  · omega

/-- A block starts at its last token or in front of it. -/
theorem blockStart_le (s : Stream) (last : Nat) : s.blockStart last ≤ last := by
  unfold blockStart
  split
  · next i hi => exact (previous?_eq_some_iff.mp hi).1
  · exact Nat.zero_le last

/-- The comment found for a file is a range of tokens. -/
theorem isIn_of_fileBlock {p : Nat} {marker : Text} {b : Block}
    (h : s.fileBlock p marker = .found b) : b.IsIn s := by
  unfold fileBlock at h
  split at h
  · cases h
  · split at h
    · cases h
    · next first _ =>
      split at h
      · cases h
      · cases h
      · next hkind =>
        dsimp only at h
        split at h
        · cases h
        · cases h
          obtain ⟨hle, hlt⟩ := blockEnd_bounds (lt_size_of_kindAt? hkind)
          exact ⟨rfl, hle, hlt⟩
      · cases h

/-- The comment found for a declaration is a range of tokens. -/
theorem isIn_of_classBlock {c : Nat} {b : Block} (h : s.classBlock c = .found b) : b.IsIn s := by
  unfold classBlock at h
  split at h
  · cases h
  · next last _ =>
    split at h
    · cases h
    · next hkind =>
      dsimp only at h
      split at h
      · cases h
      · cases h
        exact ⟨rfl, blockStart_le s last, lt_size_of_kindAt? hkind⟩
    · cases h

/-- Every declaration can carry a comment. -/
theorem classBlock_ne_notApplicable (s : Stream) (c : Nat) : s.classBlock c ≠ .notApplicable := by
  unfold classBlock
  split
  · exact Placement.noConfusion
  · split
    · exact Placement.noConfusion
    · dsimp only
      split <;> exact Placement.noConfusion
    · exact Placement.noConfusion

end Stream

/-- Every token of the block is one physical line: all but the last one end with the line
separator, and it occurs nowhere else. -/
structure Block.OneLinePerToken (b : Block) (s : Stream) : Prop where
  inner : ∀ i t, b.first ≤ i → i < b.last → s.tokens[i]? = some t →
    ∃ line, t.text = line ++ s.eol ∧ line.contains s.eol = false
  last : ∀ t, s.tokens[b.last]? = some t → t.text.contains s.eol = false

/-- Tokens that are one physical line each are the pieces of their text, up to the separator. -/
theorem forall₂_splitOn_tokens {eol : Text} (heol : Text.HeadUnique eol) {ts : List Token}
    {last : Token} (hts : ∀ t ∈ ts, ∃ line, t.text = line ++ eol ∧ line.contains eol = false)
    (hlast : last.text.contains eol = false) :
    List.Forall₂ (fun (piece : Text) (t : Token) => piece <:+: t.text)
      (Text.splitOn ((ts ++ [last]).flatMap (·.text)) eol) (ts ++ [last]) := by
  have hsingle {t : Text} (h : t.contains eol = false) : t.splitOn eol = [t] := by
    apply Text.splitOn_of_not_infix heol.ne_nil
    rw [← Text.contains_iff_infix, h]
    exact Bool.false_ne_true
  induction ts with
  | nil =>
    simp only [List.nil_append, List.flatMap_cons, List.flatMap_nil, List.append_nil]
    rw [hsingle hlast]
    exact .cons List.infix_rfl .nil
  | cons t ts ih =>
    obtain ⟨line, hline, hfree⟩ := hts t List.mem_cons_self
    simp only [List.cons_append, List.flatMap_cons, hline, List.append_assoc]
    rw [Text.splitOn_append_sep heol, hsingle hfree, List.singleton_append]
    refine .cons (hline ▸ (List.prefix_append line eol).isInfix) ?_
    exact ih fun u hu => hts u (List.mem_cons_of_mem _ hu)

namespace Block

variable {b : Block} {s : Stream}

/-- The tokens of a block are those in front of its last one, and the last one. -/
theorem IsIn.slice_eq (h : b.IsIn s) :
    ∃ last, s.tokens[b.last]? = some last ∧
      s.slice b.first (b.last + 1) = s.slice b.first b.last ++ [last] := by
  have hlt : b.last < s.tokens.length := h.last_lt_size
  refine ⟨s.tokens[b.last], List.getElem?_eq_getElem hlt, ?_⟩
  rw [Stream.slice_append s h.first_le_last (Nat.le_succ _),
    Stream.slice_eq_cons s (List.getElem?_eq_getElem hlt) (Nat.lt_succ_self _)]
  simp [Stream.slice]

/-- The pieces of a block of one-line tokens are parts of its tokens. -/
theorem OneLinePerToken.forall₂_splitOn (h : b.OneLinePerToken s) (hb : b.IsIn s)
    (heol : Text.HeadUnique s.eol) :
    List.Forall₂ (fun (piece : Text) (t : Token) => piece <:+: t.text) (b.text.splitOn s.eol)
      (s.slice b.first (b.last + 1)) := by
  obtain ⟨last, hlast, hslice⟩ := hb.slice_eq
  rw [hb.text_eq, Stream.textBetween, hslice]
  refine forall₂_splitOn_tokens heol (fun t ht => ?_) (h.last last hlast)
  obtain ⟨i, hfirst, hlt, hi⟩ := Stream.mem_slice.mp ht
  exact h.inner i t hfirst hlt hi

/-- A block of one-line tokens has one stripped line for each token. -/
theorem OneLinePerToken.length_strip (h : b.OneLinePerToken s) (hb : b.IsIn s)
    (heol : Text.HeadUnique s.eol) :
    b.first + (Margin.strip b.text s.eol).length = b.last + 1 := by
  have hle := hb.first_le_last
  have hlt := hb.last_lt_size
  rw [Margin.length_strip, (h.forall₂_splitOn hb heol).length_eq, Stream.length_slice]
  omega

/-- A stripped line of a block of one-line tokens is a part of its token. -/
theorem OneLinePerToken.exists_token (h : b.OneLinePerToken s) (hb : b.IsIn s)
    (heol : Text.HeadUnique s.eol) {i : Nat} {l : Text}
    (hl : (Margin.strip b.text s.eol)[i]? = some l) :
    ∃ t, s.tokens[b.first + i]? = some t ∧ l <:+: t.text := by
  have hpieces := h.forall₂_splitOn hb heol
  obtain ⟨p, hp, hpart⟩ := Margin.exists_piece_of_strip hl
  obtain ⟨hi, rfl⟩ := List.getElem?_eq_some_iff.mp hp
  have hi' : i < (s.slice b.first (b.last + 1)).length := hpieces.length_eq ▸ hi
  have hget := List.getElem?_eq_getElem hi'
  rw [Stream.getElem?_slice] at hget
  split at hget
  · exact ⟨_, hget, hpart.trans (hpieces.get hi hi')⟩
  · cases hget

end Block

end DocCheck
