import DocCheck.Text.Basic

/-!
# Property declarations

A property declaration is a type, a variable name that starts with `$`, and a comment. Type or
name may be missing. The gaps between the parts are kept exactly, because declarations have to
line up in columns.
-/

namespace DocCheck

/-- The parts of a property declaration with the gap in front of each. -/
structure PropertyFields where
  beforeType : Text := []
  type : Text := []
  beforeName : Text := []
  name : Text := []
  beforeComment : Text := []
  comment : Text := []
  deriving DecidableEq, Repr

/-- Whether a word is a variable. -/
def isVariable (word : Text) : Bool := word.head? == some '$'

/-- Reads the text behind a property tag. A first word that is a variable is the name, and there
is no type; a second word that is no variable starts the comment, and there is no name. -/
def PropertyFields.ofText (input : Text) : PropertyFields :=
  let beforeType := input.takeWhile isGap
  let atFirst := input.dropWhile isGap
  let first := atFirst.takeWhile (!isSpace ·)
  let afterFirst := atFirst.dropWhile (!isSpace ·)
  let gap := afterFirst.takeWhile isGap
  let atSecond := afterFirst.dropWhile isGap
  if isVariable first then
    { beforeType, name := first, beforeComment := gap, comment := Text.trimEnd atSecond }
  else
    let second := atSecond.takeWhile (!isSpace ·)
    let afterSecond := atSecond.dropWhile (!isSpace ·)
    if isVariable second then
      { beforeType, type := first, beforeName := gap, name := second
        beforeComment := afterSecond.takeWhile isGap
        comment := Text.trimEnd (afterSecond.dropWhile isGap) }
    else
      { beforeType, type := first, beforeComment := gap, comment := Text.trimEnd atSecond }

/-- A property declaration in a comment. -/
structure Property extends PropertyFields where
  tag : Text := []
  /-- The line ends between the tag and the text above it. -/
  above : Text := []
  /-- The rank among the property declarations of the comment, from one. -/
  rank : Nat := 0
  line : Nat := 0
  deriving DecidableEq, Repr

namespace Property

/-- The column of the type, from the start of the tag. -/
def typeColumn (p : Property) : Nat := p.tag.byteLength + p.beforeType.byteLength

/-- The column of the name, from the start of the type. -/
def nameColumn (p : Property) : Nat := p.type.byteLength + p.beforeName.byteLength

/-- The column of the comment, from the start of the name. -/
def commentColumn (p : Property) : Nat := p.name.byteLength + p.beforeComment.byteLength

/-- Whether names and comments of two declarations line up. -/
def alignsWith (p q : Property) : Bool :=
  p.nameColumn = q.nameColumn && p.commentColumn = q.commentColumn

/-- A property as it is shown to the user. -/
def display (p : Property) : Text := "@" ++ p.tag ++ " " ++ p.type ++ " " ++ p.name

end Property

end DocCheck
