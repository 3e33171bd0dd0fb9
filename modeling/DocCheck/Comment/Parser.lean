import DocCheck.Comment.Margin
import DocCheck.Tag.Vocabulary

/-!
# Reading a comment

The stripped lines of a comment are cut into the description, which is everything in front of the
first tag header, and the tags, each with its continuation lines. The vocabulary then gives each
tag its shape. Tags outside the vocabulary are collected, not rejected.
-/

namespace DocCheck

/-- The characters of a tag name. -/
def isTagChar (c : Char) : Bool := c.isAlphanum || c == '-' || c == '_'

/-- The name and the remainder of a line that starts with a tag. -/
def header? (line : Text) : Option (Text × Text) :=
  match line.dropWhile isMargin with
  | '@' :: rest =>
    let name := rest.takeWhile isTagChar
    if name.isEmpty then none else some (name, rest.dropWhile isTagChar)
  | _ => none

/-- Whether a line starts with a tag. -/
def isHeader (line : Text) : Bool := (header? line).isSome

/-- A tag header and the lines that belong to it. -/
structure RawTag where
  name : Text
  line : Nat
  /-- The remainder of the header line. -/
  rest : Text
  continuation : List Text
  /-- The number of blank lines directly above the header. -/
  blanksAbove : Nat
  deriving DecidableEq, Repr

namespace RawTag

/-- The content with every line trimmed. -/
def joinedText (t : RawTag) (eol : Text) : Text :=
  Text.trim (Text.join eol ((t.rest :: t.continuation).map Text.trim))

/-- The content as it stands, without trailing blank lines. -/
def exactText (t : RawTag) (eol : Text) : Text :=
  Text.join eol (t.rest :: (t.continuation.reverse.dropWhile Text.isBlank).reverse)

/-- The line ends between the tag and the text above it. -/
def above (t : RawTag) (eol : Text) : Text := eol.times (t.blanksAbove + 1)

/-- Cuts lines into continuation lines of an earlier tag and the tags that follow them. The first
line is line `line` of the comment, and `blanks` blank lines stand directly above it. -/
def group (blanks line : Nat) : List Text → List Text × List RawTag
  | [] => ([], [])
  | l :: ls =>
    let (continuation, tags) := group (if l.isBlank then blanks + 1 else 0) (line + 1) ls
    match header? l with
    | some (name, rest) => ([], ⟨name, line, rest, continuation, blanks⟩ :: tags)
    | none => (l :: continuation, tags)

end RawTag

/-- The first word of a text and the trimmed remainder. -/
def splitKeyValue (t : Text) : Text × Text :=
  (t.trim.takeWhile (!isSpace ·), Text.trim (t.trim.dropWhile (!isSpace ·)))

/-- Reads a property declaration. -/
def RawTag.property (t : RawTag) (rank : Nat) (eol : Text) : Except TagFault Property :=
  if t.rest.head?.any (!isSpace ·) then .error (.missingSeparator .typeName)
  else
    let fields := PropertyFields.ofText (t.exactText eol)
    if fields.type.elem '$' then .error (.missingSeparator .variableName)
    else .ok { fields with tag := t.name, above := t.above eol, rank, line := t.line }

/-- Reads the content of a tag in the given shape. A property declaration gets the rank `rank`. -/
def RawTag.element (t : RawTag) (shape : Shape) (rank : Nat) (eol : Text) :
    Except TagFault Element :=
  match shape with
  | .leaf => if (t.joinedText eol).isEmpty then .ok .leaf else .error .unexpectedContent
  | .single => .ok (.single (t.joinedText eol))
  | .keyValue =>
    let (value, comment) := splitKeyValue (t.joinedText eol)
    .ok (.keyValue value comment)
  | .property => (t.property rank eol).map .property

/-- Reads the tags of the vocabulary; the next property declaration gets the rank `rank`. The
first tag that cannot be read ends the reading. -/
def readTags (v : Vocabulary) (eol : Text) (rank : Nat) :
    List RawTag → Except ParseError (List Occurrence)
  | [] => .ok []
  | t :: ts =>
    match v.get? t.name with
    | none => readTags v eol rank ts
    | some g =>
      match t.element g.shape rank eol with
      | .error fault => .error ⟨t.line, t.name, fault⟩
      | .ok element =>
        (readTags v eol (if g.shape = .property then rank + 1 else rank) ts).map
          (⟨t.name, g.container, t.line, t.above eol, element⟩ :: ·)

/-- The first line of content: the line of the opener counts only if it has text. -/
def contentStart (lines : List Text) : Nat := if lines.head?.any Text.isBlank then 1 else 0

/-- The lines of content, without a blank last line. -/
def contentLines (lines : List Text) : List Text :=
  let content := lines.drop (contentStart lines)
  if 1 < lines.length && content.getLast?.any Text.isBlank then content.dropLast else content

/-- The number of blank lines at the end. -/
def trailingBlanks (lines : List Text) : Nat := (lines.reverse.takeWhile Text.isBlank).length

/-- A line of the long text without the space behind its star. -/
def dropSpace : Text → Text
  | ' ' :: rest => rest
  | line => line

/-- Reads the description, whose first line is line `start` of the comment. -/
def readDescription (body : List Text) (start : Nat) (eol : Text) : Comment :=
  let leading := body.takeWhile Text.isBlank
  let text := body.dropWhile Text.isBlank
  let short := text.takeWhile (!Text.isBlank ·)
  let afterShort := text.dropWhile (!Text.isBlank ·)
  let gap := afterShort.takeWhile Text.isBlank
  let long := ((afterShort.dropWhile Text.isBlank).reverse.dropWhile Text.isBlank).reverse
  let breaksAfter := trailingBlanks body + 1
  if text.isEmpty then { breaksAfter }
  else
    { short := Text.join eol (short.map Text.trim)
      long := Text.join eol (long.map dropSpace)
      between := if long.isEmpty then [] else eol.times (gap.length + 1)
      breaksAfter
      blanksBefore := leading.length
      shortEnd := start + leading.length + short.length - 1 }

/-- Reads a comment from its text. -/
def Comment.parse (raw : Text) (v : Vocabulary) (eol : Text) : Except ParseError Comment :=
  let lines := Margin.strip raw eol
  let start := contentStart lines
  let content := contentLines lines
  let body := content.takeWhile (!isHeader ·)
  let tagLines := content.dropWhile (!isHeader ·)
  let (_, rawTags) := RawTag.group (trailingBlanks body) (start + body.length) tagLines
  (readTags v eol 1 rawTags).map fun tags =>
    { readDescription body start eol with
      firstTag := if tagLines.isEmpty then none else some (start + body.length)
      tags
      order := descriptionEntry :: rawTags.map (·.name)
      unknown := (rawTags.filter fun t => (v.get? t.name).isNone).map fun t => ⟨t.name, t.line⟩ }

end DocCheck
