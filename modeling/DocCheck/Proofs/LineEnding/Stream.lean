import DocCheck.Proofs.LineEnding.Text
import DocCheck.Proofs.Stream.Block

/-!
# Line ends in a stream

A stream of a source with line feeds can be written with carriage returns and line feeds instead.
Positions, kinds and line breaks stay as they are, so every search finds the same position and
every comment belongs to the same thing. The text of a block only has its line ends replaced.
-/

namespace DocCheck

/-- The token with its line ends written with carriage returns. -/
def Token.crlf (t : Token) : Token := { t with text := t.text.crlf }

/-- The block with its line ends written with carriage returns. -/
def Block.crlf (b : Block) : Block := { b with text := b.text.crlf }

/-- What was found, with the line ends of a block written with carriage returns. -/
def Placement.crlf : Placement → Placement
  | found b => found b.crlf
  | other => other

namespace Stream

/-- The stream with every line end written as a carriage return and a line feed. -/
def crlf (s : Stream) : Stream := ⟨"\r\n", s.tokens.map Token.crlf⟩

/-- A stream whose line ends are line feeds, without any carriage return. -/
structure HasLineFeeds (s : Stream) : Prop where
  eol_eq : s.eol = "\n"
  not_mem_text : ∀ t ∈ s.tokens, '\r' ∉ t.text

variable (s : Stream)

/-- There are as many tokens. -/
@[simp] theorem size_crlf : s.crlf.size = s.size := List.length_map _

/-- Every token keeps its kind. -/
@[simp] theorem kindAt?_crlf (i : Nat) : s.crlf.kindAt? i = s.kindAt? i := by
  rw [kindAt?, crlf, List.getElem?_map, Option.map_map]
  rfl

/-- A part of the stream has its line ends replaced token by token. -/
theorem slice_crlf (start stop : Nat) :
    s.crlf.slice start stop = (s.slice start stop).map Token.crlf := by
  rw [slice, slice, crlf, ← List.map_take, ← List.map_drop]

/-- The first token of some sort is sought among the changed tokens. -/
theorem first?_crlf (want : Token → Bool) (start stop : Nat) :
    s.crlf.first? want start stop = s.first? (want ∘ Token.crlf) start stop := by
  rw [first?, first?, slice_crlf, List.findIdx?_map]

/-- The last token of some sort is sought among the changed tokens. -/
theorem last?_crlf (want : Token → Bool) (start stop : Nat) :
    s.crlf.last? want start stop = s.last? (want ∘ Token.crlf) start stop := by
  rw [last?, last?, slice_crlf, ← List.map_reverse, List.findIdx?_map, size_crlf]

/-- The next token of some kind is at the same position. -/
@[simp] theorem next?_crlf (want : Kind → Bool) (start : Nat) :
    s.crlf.next? want start = s.next? want start := by
  rw [next?, first?_crlf, size_crlf]
  rfl

/-- The previous token of some kind is at the same position. -/
@[simp] theorem previous?_crlf (want : Kind → Bool) (stop : Nat) :
    s.crlf.previous? want stop = s.previous? want stop := last?_crlf s _ 0 stop

/-- Tokens of some kind are at the same positions. -/
theorem positionsFrom_crlf (want : Kind → Bool) (start : Nat) :
    s.crlf.positionsFrom want start = s.positionsFrom want start := by
  fun_induction s.positionsFrom want start with
  | case1 start hnone =>
    rw [positionsFrom]
    split
    · rfl
    · next hsome => simp [hnone] at hsome
  | case2 start i hsome _ ih =>
    rw [positionsFrom]
    split
    · next hnone => simp [hsome] at hnone
    · next j hj =>
      rw [next?_crlf, hsome, Option.some.injEq] at hj
      subst hj
      exact congrArg (i :: ·) ih

/-- The anchors of the checks are at the same positions. -/
theorem positions_crlf (want : Kind → Bool) : s.crlf.positions want = s.positions want :=
  positionsFrom_crlf s want 0

/-- The text of a block has its line ends replaced. -/
theorem block_crlf (first last : Nat) : s.crlf.block first last = (s.block first last).crlf := by
  have hflat (ts : List Token) :
      (ts.map Token.crlf).flatMap (·.text) = Text.crlf (ts.flatMap (·.text)) := by
    induction ts with
    | nil => rfl
    | cons t ts ih =>
      rw [List.map_cons, List.flatMap_cons, ih, List.flatMap_cons, Text.crlf_append]
      rfl
  rw [block, textBetween, slice_crlf, hflat]
  rfl

/-- A block ends at the same position. -/
@[simp] theorem blockEnd_crlf (first : Nat) : s.crlf.blockEnd first = s.blockEnd first := by
  simp only [blockEnd, next?_crlf, size_crlf]

/-- A block starts at the same position. -/
@[simp] theorem blockStart_crlf (last : Nat) : s.crlf.blockStart last = s.blockStart last := by
  simp only [blockStart, previous?_crlf]

section LineBreaks

variable {s} (hs : s.HasLineFeeds)

include hs

/-- A token is a line break in the one stream if it is one in the other. -/
theorem isLineBreak_crlf {t : Token} (ht : t ∈ s.tokens) :
    s.crlf.isLineBreak t.crlf = s.isLineBreak t := by
  have htext : decide (t.text.crlf = "\r\n") = decide (t.text = s.eol) := by
    rw [decide_eq_decide, hs.eol_eq, Text.crlf_eq_lineEnd_iff (hs.not_mem_text t ht)]
  rw [isLineBreak, isLineBreak, ← htext]
  rfl

/-- The first line break is at the same position. -/
theorem first?_isLineBreak_crlf (start stop : Nat) :
    s.crlf.first? s.crlf.isLineBreak start stop = s.first? s.isLineBreak start stop := by
  have hfind {ts : List Token} (hts : ∀ t ∈ ts, t ∈ s.tokens) :
      ts.findIdx? (s.crlf.isLineBreak ∘ Token.crlf) = ts.findIdx? s.isLineBreak := by
    induction ts with
    | nil => rfl
    | cons t ts ih =>
      rw [List.findIdx?_cons, List.findIdx?_cons, Function.comp_apply,
        isLineBreak_crlf hs (hts t List.mem_cons_self),
        ih fun u hu => hts u (List.mem_cons_of_mem _ hu)]
  rw [first?_crlf, first?, first?, hfind]
  exact fun t ht => List.mem_of_mem_take (List.mem_of_mem_drop ht)

/-- There is a line break between the same tokens. -/
theorem hasLineBreak_crlf (start stop : Nat) :
    s.crlf.hasLineBreak start stop = s.hasLineBreak start stop := by
  rw [hasLineBreak, first?_isLineBreak_crlf hs, hasLineBreak]

/-- There is a blank line between the same tokens. -/
theorem hasBlankLine_crlf (start stop : Nat) :
    s.crlf.hasBlankLine start stop = s.hasBlankLine start stop := by
  simp only [hasBlankLine, first?_isLineBreak_crlf hs, hasLineBreak_crlf hs]

/-- The same comments sit on a declaration. -/
theorem sitsOnDeclaration_crlf (last : Nat) :
    s.crlf.sitsOnDeclaration last = s.sitsOnDeclaration last := by
  simp only [sitsOnDeclaration, next?_crlf, kindAt?_crlf, hasLineBreak_crlf hs,
    hasBlankLine_crlf hs]

/-- The same comment is the file's. -/
theorem fileBlock_crlf {marker : Text} (hr : '\r' ∉ marker) (hn : '\n' ∉ marker) (p : Nat) :
    s.crlf.fileBlock p marker = (s.fileBlock p marker).crlf := by
  have hdirective (i : Nat) :
      s.crlf.tokens[i]?.any (isDirective marker) = s.tokens[i]?.any (isDirective marker) := by
    rw [crlf, List.getElem?_map, Option.any_map]
    congr 1
    funext t
    exact congrArg (t.kind = .comment && !marker.isEmpty && ·) (Text.contains_crlf hr hn t.text)
  have hcandidate : s.crlf.fileCandidate? p marker = s.fileCandidate? p marker := by
    simp only [fileCandidate?, next?_crlf, hdirective]
  simp only [fileBlock, previous?_crlf, hcandidate, kindAt?_crlf, blockEnd_crlf,
    sitsOnDeclaration_crlf hs, block_crlf]
  split
  · rfl
  · split
    · rfl
    · split
      · rfl
      · rfl
      · split <;> rfl
      · rfl

/-- The same comment is the declaration's. -/
theorem classBlock_crlf (c : Nat) : s.crlf.classBlock c = (s.classBlock c).crlf := by
  have hfile (first last : Nat) :
      s.crlf.isFileComment first last c = s.isFileComment first last c := by
    simp only [isFileComment, previous?_crlf, hasBlankLine_crlf hs]
  simp only [classBlock, previous?_crlf, kindAt?_crlf, blockStart_crlf, hfile, block_crlf]
  split
  · rfl
  · split
    · rfl
    · split <;> rfl
    · rfl

/-- A block of the stream has no carriage return. -/
theorem HasLineFeeds.not_mem_block {b : Block} (hb : b.IsIn s) : '\r' ∉ b.text := by
  rw [hb.text_eq]
  intro hmem
  obtain ⟨t, ht, hreturn⟩ := List.mem_flatMap.mp hmem
  exact hs.not_mem_text t (List.mem_of_mem_take (List.mem_of_mem_drop ht)) hreturn

end LineBreaks

end Stream

end DocCheck
