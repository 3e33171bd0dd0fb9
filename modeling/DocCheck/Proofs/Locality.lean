import DocCheck.Proofs.Sink
import DocCheck.Proofs.Stream.Block

/-!
# Declarations look backwards only

The comment of a declaration is looked for in front of its keyword, and whether it is the comment of
the file is decided by what precedes it and by the line ends up to the keyword. Tokens that are
added at the end of a stream therefore change nothing for the declarations that are there: each
search for them ends at or in front of the keyword.
-/

namespace DocCheck

namespace Stream

/-- The stream with further tokens at its end. -/
def extend (s : Stream) (ts : List Token) : Stream := { s with tokens := s.tokens ++ ts }

variable (s : Stream) (ts : List Token) {start stop i : Nat}

/-- Tokens that are added count. -/
@[simp] theorem size_extend : (s.extend ts).size = s.size + ts.length := List.length_append

/-- Tokens that were there keep their kind. -/
theorem kindAt?_extend (h : i < s.size) : (s.extend ts).kindAt? i = s.kindAt? i := by
  rw [kindAt?, extend, List.getElem?_append_left h, kindAt?]

/-- The added tokens are counted from the old end on. -/
theorem kindAt?_extend_add (i : Nat) :
    (s.extend ts).kindAt? (s.size + i) = (mk s.eol ts).kindAt? i := by
  have hsize : s.tokens.length ≤ s.size + i := Nat.le_add_right _ _
  rw [kindAt?, extend, List.getElem?_append_right hsize, size, Nat.add_sub_cancel_left, kindAt?]

/-- A range that ends inside the stream has the same tokens. -/
theorem slice_extend (start : Nat) (h : stop ≤ s.size) :
    (s.extend ts).slice start stop = s.slice start stop := by
  rw [slice, extend, List.take_append_of_le_length h, slice]

/-- A forward search that ends inside the stream finds the same. -/
theorem first?_extend (want : Token → Bool) (start : Nat) (h : stop ≤ s.size) :
    (s.extend ts).first? want start stop = s.first? want start stop := by
  rw [first?, slice_extend s ts start h, first?]

/-- A backward search that starts inside the stream finds the same. -/
theorem previous?_extend (want : Kind → Bool) (h : stop ≤ s.size) :
    (s.extend ts).previous? want stop = s.previous? want stop := by
  have hmin : min stop (s.extend ts).size = min stop s.size := by
    rw [size_extend]
    omega
  rw [previous?, last?, slice_extend s ts 0 h, hmin, previous?, last?]

/-- Whether two tokens are on one line does not depend on what follows. -/
theorem hasLineBreak_extend (start : Nat) (h : stop ≤ s.size) :
    (s.extend ts).hasLineBreak start stop = s.hasLineBreak start stop :=
  congrArg Option.isSome (first?_extend s ts s.isLineBreak start h)

/-- Whether a blank line parts two tokens does not depend on what follows. -/
theorem hasBlankLine_extend (start : Nat) (h : stop ≤ s.size) :
    (s.extend ts).hasBlankLine start stop = s.hasBlankLine start stop := by
  have hfirst : (s.extend ts).first? (s.extend ts).isLineBreak start stop =
      s.first? s.isLineBreak start stop := first?_extend s ts s.isLineBreak start h
  simp only [hasBlankLine, hfirst, hasLineBreak_extend s ts _ h]

/-- Where a block starts does not depend on what follows. -/
theorem blockStart_extend {last : Nat} (h : last ≤ s.size) :
    (s.extend ts).blockStart last = s.blockStart last := by
  rw [blockStart, previous?_extend s ts _ h, blockStart]

/-- The text of a block does not depend on what follows. -/
theorem block_extend (first : Nat) {last : Nat} (h : last < s.size) :
    (s.extend ts).block first last = s.block first last := by
  rw [block, textBetween, slice_extend s ts first h, block, textBetween]

/-- Whether a block is the file's is decided by the tokens up to the keyword. -/
theorem isFileComment_extend {first last c : Nat} (hfirst : first ≤ last) (hlast : last < c)
    (hc : c ≤ s.size) :
    (s.extend ts).isFileComment first last c = s.isFileComment first last c := by
  have hbefore : first ≤ s.size := by omega
  rw [isFileComment, previous?_extend s ts _ hc, previous?_extend s ts _ hbefore, isFileComment]
  congr 1
  cases hprevious : s.previous? (· ≠ .docComment) first with
  | none => rfl
  | some before =>
    have hlt : before < first := (previous?_eq_some_iff.mp hprevious).1
    have hsize : before ≤ s.size := by omega
    dsimp only
    rw [previous?_extend s ts _ hsize, hasBlankLine_extend s ts _ hc]

/-- The same comment, or its absence, is found for a declaration of the stream. -/
theorem classBlock_extend {c : Nat} (hc : c ≤ s.size) :
    (s.extend ts).classBlock c = s.classBlock c := by
  rw [classBlock, previous?_extend s ts _ hc, classBlock]
  cases hprevious : s.previous? (!leadsToClass ·) c with
  | none => rfl
  | some last =>
    have hlast : last < c := (previous?_eq_some_iff.mp hprevious).1
    have hsize : last < s.size := by omega
    dsimp only
    rw [kindAt?_extend s ts hsize, blockStart_extend s ts (Nat.le_of_lt hsize),
      isFileComment_extend s ts (blockStart_le s last) hlast hc, block_extend s ts _ hsize]

/-- The positions of a wanted kind are those of the stream and those of the added tokens. -/
theorem positions_extend (want : Kind → Bool) :
    (s.extend ts).positions want =
      s.positions want ++ ((mk s.eol ts).positions want).map (s.size + ·) := by
  have hfront : (List.range s.size).filter (fun i => ((s.extend ts).kindAt? i).any want) =
      (List.range s.size).filter fun i => (s.kindAt? i).any want := by
    apply List.filter_congr
    intro i hi
    rw [kindAt?_extend s ts (List.mem_range.mp hi)]
  have hback (i : Nat) : ((s.extend ts).kindAt? (s.size + i)).any want =
      ((mk s.eol ts).kindAt? i).any want := by rw [kindAt?_extend_add]
  simp only [positions_eq_filter, size_extend, List.range_add, List.filter_append, hfront,
    List.filter_map, Function.comp_def, hback]
  rfl

end Stream

/-- A declaration of the stream keeps its issues. -/
theorem classIssues_extend (cfg : Settings) (s : Stream) (ts : List Token) {c : Nat}
    (hc : c ≤ s.size) : classIssues cfg (s.extend ts) c = classIssues cfg s c := by
  rw [classIssues, examineClass, Stream.classBlock_extend s ts hc, classIssues, examineClass]
  rfl

/-- With tokens added at the end of a stream the check of declarations finds the issues that it
finds without them, and behind these the issues of the declarations among the added tokens. The
rules of further tags may be any functions: they see the comment and not the stream. -/
theorem Check.run_classComment_extend (cfg : Settings) (s : Stream) (ts : List Token) :
    Check.classComment.run cfg (s.extend ts) =
      Check.classComment.run cfg s ++
        ((Stream.mk s.eol ts).positions (·.isClassLike)).flatMap fun i =>
          classIssues cfg (s.extend ts) (s.size + i) := by
  have hfront : (s.positions (·.isClassLike)).flatMap (classIssues cfg (s.extend ts)) =
      (s.positions (·.isClassLike)).flatMap (classIssues cfg s) := by
    apply List.flatMap_congr
    intro c hc
    rw [Stream.positions_eq_filter] at hc
    have hlt : c < s.size := List.mem_range.mp (List.mem_of_mem_filter hc)
    exact classIssues_extend cfg s ts (Nat.le_of_lt hlt)
  simp only [Check.run_classComment_eq, Stream.positions_extend, List.flatMap_append, hfront,
    List.flatMap_map]

end DocCheck
