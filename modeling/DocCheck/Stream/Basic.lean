import DocCheck.Token

/-!
# Token streams

A stream is a list of tokens together with the line separator of its source. Positions count
tokens from zero. Searches run over a half-open range of positions and find its first or its last
token of the wanted sort; positions beyond the end of the stream are simply not there.
-/

namespace DocCheck

/-- A tokenised source file. -/
structure Stream where
  eol : Text
  tokens : List Token
  deriving DecidableEq, Repr

namespace Stream

/-- The number of tokens. -/
def size (s : Stream) : Nat := s.tokens.length

/-- The kind of the token at a position. -/
def kindAt? (s : Stream) (i : Nat) : Option Kind := s.tokens[i]?.map (·.kind)

/-- The source line of the token at a position. -/
def lineAt? (s : Stream) (i : Nat) : Option Nat := s.tokens[i]?.map (·.line)

/-- The tokens at the positions from `start` up to but not including `stop`. -/
def slice (s : Stream) (start stop : Nat) : List Token := (s.tokens.take stop).drop start

/-- The first position from `start` up to but not including `stop` whose token is wanted. -/
def first? (s : Stream) (want : Token → Bool) (start stop : Nat) : Option Nat :=
  ((s.slice start stop).findIdx? want).map (start + ·)

/-- The last position from `start` up to but not including `stop` whose token is wanted. -/
def last? (s : Stream) (want : Token → Bool) (start stop : Nat) : Option Nat :=
  ((s.slice start stop).reverse.findIdx? want).map fun k => min stop s.size - 1 - k

/-- The first wanted kind at or after a position. -/
def next? (s : Stream) (want : Kind → Bool) (start : Nat) : Option Nat :=
  s.first? (want ·.kind) start s.size

/-- The last wanted kind before a position. -/
def previous? (s : Stream) (want : Kind → Bool) (stop : Nat) : Option Nat :=
  s.last? (want ·.kind) 0 stop

/-- The text of the tokens from `first` up to and including `last`. -/
def textBetween (s : Stream) (first last : Nat) : Text :=
  (s.slice first (last + 1)).flatMap (·.text)

/-- What a search finds lies in the range that is searched. -/
theorem first?_bounds {s : Stream} {want : Token → Bool} {start stop i : Nat}
    (h : s.first? want start stop = some i) : start ≤ i ∧ i < stop ∧ i < s.size := by
  obtain ⟨k, hk, rfl⟩ := Option.map_eq_some_iff.mp h
  have hlt := (List.findIdx?_eq_some_iff_getElem.mp hk).1
  simp only [slice, List.length_drop, List.length_take] at hlt
  simp only [size]
  omega

/-- The positions of the tokens of a wanted kind from `start` on, found one after the other. -/
def positionsFrom (s : Stream) (want : Kind → Bool) (start : Nat) : List Nat :=
  match h : s.next? want start with
  | none => []
  | some i =>
    have := first?_bounds h
    i :: s.positionsFrom want (i + 1)
termination_by s.size - start

/-- The positions of the tokens of a wanted kind, in order. -/
def positions (s : Stream) (want : Kind → Bool) : List Nat := s.positionsFrom want 0

end Stream

end DocCheck
