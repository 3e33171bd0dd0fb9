import DocCheck.Comment.Property

/-!
# Comments

A comment has a short text, a long text and tags. Line numbers count the lines of the comment from
zero, so line 0 is the line of the opener.
-/

namespace DocCheck

/-- The content of a tag, in the shape its grammar prescribes. -/
inductive Element where
  | leaf
  | single (content : Text)
  | keyValue (value comment : Text)
  | property (declaration : Property)
  deriving DecidableEq, Repr

/-- A tag of the vocabulary in a comment. -/
structure Occurrence where
  name : Text
  container : Text
  line : Nat
  /-- The line ends between the tag and the text above it. -/
  above : Text
  element : Element
  deriving DecidableEq, Repr

/-- The text that tells whether a tag has content. -/
def Occurrence.content (o : Occurrence) : Text :=
  match o.element with
  | .leaf => []
  | .single content => content
  | .keyValue value _ => value
  | .property declaration => declaration.type

/-- A tag outside the vocabulary in a comment. -/
structure UnknownTag where
  name : Text
  line : Nat
  deriving DecidableEq, Repr

/-- The entry that stands for the description in the order of tags. -/
def descriptionEntry : Text := "comment"

/-- A documentation comment. -/
structure Comment where
  /-- The first paragraph. -/
  short : Text := []
  /-- The further paragraphs. -/
  long : Text := []
  /-- The line ends between the short and the long text. -/
  between : Text := []
  /-- The number of line ends between the description and the first tag. -/
  breaksAfter : Nat := 0
  /-- The number of blank lines in front of the short text. -/
  blanksBefore : Nat := 0
  /-- The last line of the short text. -/
  shortEnd : Nat := 0
  /-- The line of the first tag. -/
  firstTag : Option Nat := none
  /-- The tags of the vocabulary, in order. -/
  tags : List Occurrence := []
  /-- The description entry and the names of all tags, in order. -/
  order : List Text := [descriptionEntry]
  /-- The tags outside the vocabulary, in order. -/
  unknown : List UnknownTag := []
  deriving DecidableEq, Repr

namespace Comment

/-- A comment with neither description nor tags. -/
def isEmpty (c : Comment) : Bool := c.short.isEmpty && c.long.isEmpty && c.order.length ≤ 1

/-- Whether there is text behind the first paragraph. -/
def hasLong (c : Comment) : Bool := !c.long.isEmpty

/-- The occurrences of a tag. -/
def occurrences (c : Comment) (name : Text) : List Occurrence := c.tags.filter (·.name = name)

/-- The occurrences that are filed under a heading. -/
def container (c : Comment) (heading : Text) : List Occurrence :=
  c.tags.filter (·.container = heading)

/-- The places of a name in the order of tags. -/
def indexes (c : Comment) (name : Text) : List Nat :=
  (c.order.zipIdx.filter (·.1 = name)).map (·.2)

/-- The property declarations, in order. -/
def properties (c : Comment) : List Property :=
  c.tags.filterMap fun o =>
    match o.element with
    | .property declaration => some declaration
    | _ => none

end Comment

end DocCheck
