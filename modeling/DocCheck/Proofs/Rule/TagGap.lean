import DocCheck.Proofs.Rule.Alignment
import DocCheck.Proofs.Rule.Spacing
import DocCheck.Proofs.Structural

/-!
# The gap above a tag

Reading counts blank lines twice. On its way through the tags it keeps the number of blank lines
directly above the line it has reached, and for the description it counts the blank lines at the
end. A rule for the tags in general looks at the second number, a rule for property declarations at
the first one. Both are the number of blank lines directly above a line, so where the first tag is a
declaration the two rules agree.
-/

namespace DocCheck

open Text

/-- The number of blank lines directly above a line of a comment; a blank line 0 does not count. -/
def blanksAbove (lines : List Text) : Nat → Nat
  | 0 => 0
  | k + 1 => if k ≠ 0 && lines[k]?.any isBlank then blanksAbove lines k + 1 else 0

section Counting

variable {lines : List Text}

end Counting

section Reading

variable {raw eol : Text} {v : Vocabulary} {c : Comment}

end Reading

section Rules

variable {raw : Text} {v : Vocabulary} {c : Comment} {s : Scope} {position : Nat}

end Rules

end DocCheck
