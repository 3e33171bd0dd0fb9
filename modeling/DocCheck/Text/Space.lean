/-!
# Three kinds of white space

Documentation comments meet white space in three roles. Trimming and blank-line tests use the
Unicode property `White_Space`; the margin in front of a comment marker or a tag is spaces and
tabs; the gaps between the fields of a property declaration may also hold line ends.
-/

namespace DocCheck

/-- The Unicode property `White_Space`. -/
def isSpace (c : Char) : Bool :=
  let n := c.toNat
  (0x09 ≤ n && n ≤ 0x0D) || n == 0x20 || n == 0x85 || n == 0xA0 || n == 0x1680 ||
    (0x2000 ≤ n && n ≤ 0x200A) || n == 0x2028 || n == 0x2029 || n == 0x202F || n == 0x205F ||
    n == 0x3000

/-- The characters of a margin: space and tab. -/
def isMargin (c : Char) : Bool := c == ' ' || c == '\t'

/-- The characters of a gap between property fields: space, tab, carriage return and line feed. -/
def isGap (c : Char) : Bool := c == ' ' || c == '\t' || c == '\r' || c == '\n'

/-- What may stand in a margin may stand in a gap. -/
theorem isGap_of_isMargin {c : Char} (h : isMargin c) : isGap c := by
  simp only [isMargin, isGap, Bool.or_eq_true] at h ⊢
  exact .inl (.inl h)

/-- What may stand in a gap is a space. -/
theorem isSpace_of_isGap {c : Char} (h : isGap c) : isSpace c := by
  simp only [isGap, Bool.or_eq_true, beq_iff_eq] at h
  rcases h with ((rfl | rfl) | rfl) | rfl <;> decide

end DocCheck
