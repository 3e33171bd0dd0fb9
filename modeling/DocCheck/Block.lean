import DocCheck.Stream.Basic

/-!
# Which documentation comment belongs to what

A documentation comment belongs to the file, if it is the first thing after the first open tag, or
to the class-like declaration that it precedes. A lone comment between the open tag and the first
declaration could be either: it is the declaration's when no blank line stands between them, and
the file's when one does.
-/

namespace DocCheck

/-- A maximal run of documentation-comment tokens and its text. -/
structure Block where
  first : Nat
  last : Nat
  text : Text
  deriving DecidableEq, Repr

/-- What was found in the place of a documentation comment. -/
inductive Placement where
  /-- The anchor carries no documentation comment at all. -/
  | notApplicable
  /-- There is none, which is to be reported at the given position. -/
  | missing (position : Nat)
  /-- A plain comment stands there, which is to be reported at the given position. -/
  | wrongStyle (position : Nat)
  | found (block : Block)
  deriving DecidableEq, Repr

namespace Stream

/-- Whether a token is a line end on its own. -/
def isLineBreak (s : Stream) (t : Token) : Bool := t.kind = .whitespace && t.text = s.eol

/-- Whether a line end lies in the given range. -/
def hasLineBreak (s : Stream) (start stop : Nat) : Bool :=
  (s.first? s.isLineBreak start stop).isSome

/-- Whether two line ends lie in the given range. -/
def hasBlankLine (s : Stream) (start stop : Nat) : Bool :=
  match s.first? s.isLineBreak start stop with
  | some i => s.hasLineBreak (i + 1) stop
  | none => false

/-- The last token of the documentation comment that starts at a position. -/
def blockEnd (s : Stream) (first : Nat) : Nat :=
  match s.next? (· ≠ .docComment) (first + 1) with
  | some i => i - 1
  | none => s.size - 1

/-- The first token of the documentation comment that ends at a position. -/
def blockStart (s : Stream) (last : Nat) : Nat :=
  match s.previous? (· ≠ .docComment) last with
  | some i => i + 1
  | none => 0

/-- The block of the tokens from `first` to `last`. -/
def block (s : Stream) (first last : Nat) : Block := ⟨first, last, s.textBetween first last⟩

/-- Whether a token is a plain comment with the marker of an editor directive. -/
def isDirective (marker : Text) (t : Token) : Bool :=
  t.kind = .comment && !marker.isEmpty && t.text.contains marker

/-- The place of the file comment: the first token after the open tag at `p` that is neither white
space nor an editor directive. -/
def fileCandidate? (s : Stream) (p : Nat) (marker : Text) : Option Nat :=
  match s.next? (· ≠ .whitespace) (p + 1) with
  | none => none
  | some i =>
    if s.tokens[i]?.any (isDirective marker) then s.next? (· ≠ .whitespace) (i + 1) else some i

/-- The tokens that a file comment is looked for in front of. -/
def followsFileComment : Kind → Bool
  | .abstractWord | .classWord | .interfaceWord | .traitWord | .functionWord | .docComment => true
  | _ => false

/-- Whether the comment that ends at `last` sits directly on a declaration: the next declaration
or documentation comment is a declaration, and exactly one line end is in between. -/
def sitsOnDeclaration (s : Stream) (last : Nat) : Bool :=
  match s.next? followsFileComment (last + 1) with
  | none => false
  | some next =>
    s.kindAt? next ≠ some .docComment && s.hasLineBreak (last + 1) next &&
      !s.hasBlankLine (last + 1) next

/-- The documentation comment of the file whose open tag is at `p`. Only the first open tag of a
stream carries one. -/
def fileBlock (s : Stream) (p : Nat) (marker : Text) : Placement :=
  if (s.previous? (· = .openTag) p).isSome then .notApplicable
  else
    match s.fileCandidate? p marker with
    | none => .missing (p + 1)
    | some first =>
      match s.kindAt? first with
      | some .closeTag => .notApplicable
      | some .comment => .wrongStyle (p + 1)
      | some .docComment =>
        let last := s.blockEnd first
        if s.sitsOnDeclaration last then .missing (p + 1) else .found (s.block first last)
      | _ => .missing (p + 1)

/-- The tokens that may stand between a declaration's comment and its keyword. -/
def leadsToClass : Kind → Bool
  | .abstractWord | .whitespace | .finalWord => true
  | _ => false

/-- Whether the block from `first` to `last` in front of the keyword at `c` is the file's: it is
the only documentation comment so far, something precedes it, and a blank line separates it from
the first class-like keyword of the stream. -/
def isFileComment (s : Stream) (first last c : Nat) : Bool :=
  (s.previous? (·.isClassLike) c).isNone &&
    match s.previous? (· ≠ .docComment) first with
    | none => false
    | some before =>
      (s.previous? (· = .docComment) before).isNone && s.hasBlankLine (last + 1) c

/-- The documentation comment of the class-like declaration whose keyword is at `c`. -/
def classBlock (s : Stream) (c : Nat) : Placement :=
  match s.previous? (!leadsToClass ·) c with
  | none => .missing c
  | some last =>
    match s.kindAt? last with
    | some .comment => .wrongStyle c
    | some .docComment =>
      let first := s.blockStart last
      if s.isFileComment first last c then .missing (c + 1) else .found (s.block first last)
    | _ => .missing c

end Stream

end DocCheck
