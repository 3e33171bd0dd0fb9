import DocCheck.Comment.Basic
import DocCheck.Issue

/-!
# Tag grammars

A grammar says how the content of a tag is read, under which heading its occurrences are filed,
whether the tag must be there and may be repeated, and which rule its content has to follow.
-/

namespace DocCheck

/-- How the content of a tag is read. -/
inductive Shape where
  /-- The tag takes no content. -/
  | leaf
  /-- Free text. -/
  | single
  /-- A word and a comment. -/
  | keyValue
  /-- A type, a variable name and a comment in columns. -/
  | property
  deriving DecidableEq, Repr

/-- Whether a tag has to be present. -/
inductive Requirement where
  | required
  | optional
  /-- Known, but exempt from the rules on presence, repetition and content. -/
  | tolerated
  deriving DecidableEq, Repr

/-- A rule for the content of a tag: the issues of its occurrences, which are given in their order,
in a block. A rule can be any function. It is entered together with the settings of the checks, so
what it takes from them, apart from the version markers of the scope, is part of the function. -/
structure ContentRule where
  check : Scope → List Occurrence → List Issue

/-- The grammar of one tag. -/
structure Grammar where
  name : Text
  shape : Shape
  container : Text := name
  requirement : Requirement := .optional
  repeatable : Bool := false
  /-- Where the tag belongs among the others, in words. -/
  orderHint : Option Text := none
  /-- The rule for the content; without one the content must not be empty. -/
  rule : Option ContentRule := none

/-- Whether the rules on presence, repetition and content apply to the tag. -/
def Grammar.isChecked (g : Grammar) : Bool := g.requirement ≠ .tolerated

end DocCheck
