import DocCheck.Comment.Property
import DocCheck.Issue

/-!
# The alignment of property declarations

The comment of a property stands either on the line of its declaration or on lines of its own
below it. Declarations with a comment on their line have to line up in columns with their
neighbours; a comment on its own lines has to start under the type. The declarations of a comment
are examined in one pass, which also keeps the narrowest gaps seen so far.
-/

namespace DocCheck

/-- The number of spaces in a text. -/
def countSpaces (t : Text) : Nat := t.countP (· == ' ')

namespace Property

/-- Whether the comment stands on lines of its own. -/
def ownLine (p : Property) (eol : Text) : Bool := (p.beforeComment.afterLast? eol).isSome

/-- The blanks in front of the comment on its first line. -/
def indentation (p : Property) (eol : Text) : Text :=
  (p.beforeComment.afterLast? eol).getD p.beforeComment

/-- The name in messages. -/
def label (p : Property) : Text := if p.name.isEmpty then "[ UNKNOWN ]" else p.name

/-- The name in messages about the declaration that follows. -/
def previousLabel (p : Property) : Text := if p.name.isEmpty then "UNKNOWN" else p.name

/-- The issues with the columns of a declaration and of the one before it. -/
def checkColumns (p previous : Property) (s : Scope) : List Issue :=
  (if p.typeColumn = previous.typeColumn then [] else
    [s.at p.line
      (.propertyTypesNotAligned p.type p.typeColumn previous.type previous.typeColumn)]) ++
  (if p.alignsWith previous then [] else
    [s.at p.line (.propertiesNotAligned previous.previousLabel (p.rank - 1) p.label p.rank)])

/-- The issues with missing parts. -/
def checkParts (p : Property) (s : Scope) : List Issue :=
  (if p.name.isEmpty then [s.at p.line (.missingPropertyName p.rank)] else []) ++
  (if p.type.isEmpty then [s.at p.line (.missingPropertyType p.rank)] else []) ++
  (if p.comment.isBlank then [s.at p.line (.missingPropertyComment p.label p.rank)] else [])

/-- The issues with the indentation of a comment on lines of its own. -/
def checkOwnLines (p : Property) (s : Scope) : List Issue :=
  let indentation := p.indentation s.eol
  let commentLine := p.line + p.beforeComment.count s.eol
  (if indentation.byteLength = p.tag.byteLength + 3 then [] else
    [s.at p.line .propertyCommentIndent]) ++
  ((p.comment.splitOn s.eol).zipIdx.drop 1).filterMap fun (line, i) =>
    if line.isBlank || indentation.isPrefixOf line then none
    else some (s.at (commentLine + i) .propertyCommentLines)

end Property

namespace Alignment

/-- The narrowest gap so far and the line of the first declaration that has it. -/
abbrev Narrowest := Option (Nat × Nat)

/-- Takes a gap of `width` spaces on a line into account. -/
def Narrowest.update (n : Narrowest) (width line : Nat) : Narrowest :=
  match n with
  | none => some (width, line)
  | some (least, place) => if width < least then some (width, line) else some (least, place)

/-- What the pass keeps of the declarations it has seen. -/
structure State where
  nameGap : Narrowest := none
  commentGap : Narrowest := none
  /-- Whether the comment of the first declaration stands on its own lines. -/
  style : Option Bool := none
  /-- The line of the first declaration in another style than the first one. -/
  mixedAt : Option Nat := none
  /-- The last declaration, and whether its comment stands on its own lines. -/
  previous : Option (Property × Bool) := none

/-- The state after one more declaration. -/
def State.next (st : State) (p : Property) (eol : Text) : State :=
  let own := p.ownLine eol
  { nameGap := st.nameGap.update (countSpaces p.beforeName) p.line
    commentGap :=
      if p.comment.isBlank then st.commentGap
      else st.commentGap.update (countSpaces (p.indentation eol)) p.line
    style := some (st.style.getD own)
    mixedAt := st.mixedAt.or (if st.style.any (· ≠ own) then some p.line else none)
    previous := some (p, own) }

/-- The issues with one declaration. -/
def State.check (st : State) (p : Property) (s : Scope) : List Issue :=
  let own := p.ownLine s.eol
  (match st.previous with
    | some (previous, false) => if own then [] else p.checkColumns previous s
    | _ => []) ++
  p.checkParts s ++ (if own then p.checkOwnLines s else [])

/-- The issues with all declarations together. -/
def State.close (st : State) (s : Scope) : List Issue :=
  (st.mixedAt.map fun line => s.at line .mixedPropertyIndent).toList ++
  (match st.nameGap, st.commentGap with
    | some (width, line), some _ => if width = 1 then [] else [s.at line .propertyTypeSpacing]
    | _, _ => []) ++
  (match st.previous, st.commentGap with
    | some (_, false), some (width, line) =>
      if width = 1 then [] else [s.at line .propertyNameSpacing]
    | _, _ => [])

/-- The issues with the remaining declarations. -/
def walk (s : Scope) (st : State) : List Property → List Issue
  | [] => st.close s
  | p :: ps => st.check p s ++ walk s (st.next p s.eol) ps

end Alignment

/-- The issues with the property declarations of a comment, in order. -/
def checkProperties (properties : List Property) (s : Scope) : List Issue :=
  match properties with
  | [] => []
  | p :: _ =>
    (if p.above.count s.eol = 2 then [] else [s.at p.line .propertyNotSeparated]) ++
      Alignment.walk s {} properties

end DocCheck
