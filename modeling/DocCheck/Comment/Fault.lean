import DocCheck.Text.Basic

/-!
# Faults of comments

A comment cannot be read if one of its tags is malformed. The fault tells the line and the name of
that tag and what is wrong with it.
-/

namespace DocCheck

/-- The parts of a property declaration that a separator can be missing in front of. -/
inductive PropertyPart where
  | typeName
  | variableName
  deriving DecidableEq, Repr

/-- Why the content of a tag cannot be read. -/
inductive TagFault where
  /-- No white space separates a part of a property declaration from what precedes it. -/
  | missingSeparator (part : PropertyPart)
  /-- A tag that takes no content has some. -/
  | unexpectedContent
  deriving DecidableEq, Repr

/-- A tag that cannot be read, and its line. -/
structure ParseError where
  line : Nat
  tag : Text
  fault : TagFault
  deriving DecidableEq, Repr

/-- The part as it is called in messages. -/
def PropertyPart.label : PropertyPart → Text
  | .typeName => "type"
  | .variableName => "variable name"

/-- The wording of a fault in the tag with the given name. -/
def TagFault.message (tag : Text) : TagFault → Text
  | .missingSeparator part =>
    "@" ++ tag ++ " tag is missing the whitespace separator before its " ++ part.label
  | .unexpectedContent => "@" ++ tag ++ " tag does not accept content"

/-- The wording of a parse error. -/
def ParseError.message (e : ParseError) : Text := e.fault.message e.tag

end DocCheck
