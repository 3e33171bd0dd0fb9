import DocCheck.Comment.Fault
import DocCheck.Stream.Basic
import DocCheck.Text.Uppercase

/-!
# Issues

An issue is a finding at a token position. Findings are the causes; their wording and their
severity are functions of the cause. A diagnostic is an issue as it is shown to the user, with the
source line of its token.
-/

namespace DocCheck

/-- How much an issue weighs. -/
inductive Severity where
  /-- The comment is usable as it is. -/
  | warning
  /-- The comment breaks a rule. -/
  | error
  deriving DecidableEq, Repr

/-- The word that reports use for a severity. -/
def Severity.name : Severity → Text
  | .warning => "warning"
  | .error => "error"

/-- What a documentation comment belongs to. -/
inductive Owner where
  | file
  /-- A class, an interface or a trait. -/
  | declaration
  deriving DecidableEq, Repr

/-- The word that messages use for what a block documents. -/
def Owner.name : Owner → Text
  | .file => "file"
  | .declaration => "class"

/-- The name at the start of a sentence. -/
def Owner.title : Owner → Text
  | .file => "File"
  | .declaration => "Class"

/-- What can be wrong with a documentation comment. -/
inductive Finding where
  /-- There is no documentation comment. -/
  | missingBlock (owner : Owner)
  /-- A plain comment stands in place of the documentation comment. -/
  | wrongStyle (owner : Owner)
  /-- The comment has neither description nor tags. -/
  | emptyBlock (owner : Owner)
  /-- A tag cannot be read. -/
  | malformed (tag : Text) (fault : TagFault)
  | extraNewlinesBeforeShort (owner : Owner) (count : Nat)
  | blankLineBetweenDescriptions (owner : Owner)
  | blankLineBeforeTags (owner : Owner)
  | missingTag (owner : Owner) (tag : Text)
  | duplicateTag (owner : Owner) (tag : Text)
  | ungroupedTags (tag : Text)
  | missingContent (owner : Owner) (tag : Text)
  | unknownTag (owner : Owner) (tag : Text)
  | invalidPackageName (tag name suggestion : Text)
  | emptyPackageName (tag : Text)
  | invalidAuthor
  | copyrightSeparator
  | invalidYearSpan (found suggestion : Text)
  | invalidCopyright
  | invalidLicense
  | unmarkedVersion (owner : Owner) (version suggestion : Text)
  | propertyNotSeparated
  | propertyTypesNotAligned (type : Text) (column : Nat) (previous : Text) (previousColumn : Nat)
  | propertiesNotAligned (previous : Text) (previousRank : Nat) (name : Text) (rank : Nat)
  | missingPropertyName (rank : Nat)
  | missingPropertyType (rank : Nat)
  | missingPropertyComment (name : Text) (rank : Nat)
  | propertyCommentIndent
  | propertyCommentLines
  | mixedPropertyIndent
  | propertyTypeSpacing
  | propertyNameSpacing
  deriving DecidableEq, Repr

namespace Finding

/-- Findings that are a matter of convention are warnings; all others are errors. -/
def severity : Finding → Severity
  | unknownTag .. | invalidYearSpan .. | unmarkedVersion .. => .warning
  | _ => .error

/-- The wording of a finding. -/
def message : Finding → Text
  | missingBlock owner => "Missing " ++ owner.name ++ " doc comment"
  | wrongStyle owner =>
    "You must use \"/**\" style comments for a " ++ owner.name ++ " comment"
  | emptyBlock owner => owner.title ++ " doc comment is empty"
  | malformed tag fault => fault.message tag
  | extraNewlinesBeforeShort owner count =>
    "Extra " ++ (if 1 < count then "newlines" else "newline" : Text) ++ " found before " ++
      owner.name ++ " comment short description"
  | blankLineBetweenDescriptions owner =>
    "There must be exactly one blank line between descriptions in " ++ owner.name ++ " comment"
  | blankLineBeforeTags owner =>
    "There must be exactly one blank line before the tags in " ++ owner.name ++ " comment"
  | missingTag owner tag => "Missing @" ++ tag ++ " tag in " ++ owner.name ++ " comment"
  | duplicateTag owner tag =>
    "Only 1 @" ++ tag ++ " tag is allowed in a " ++ owner.name ++ " comment"
  | ungroupedTags tag => "@" ++ tag ++ " tags must be grouped together"
  | missingContent owner tag =>
    "Content missing for @" ++ tag ++ " tag in " ++ owner.name ++ " comment"
  | unknownTag owner tag => "@" ++ tag ++ " tag is not allowed in " ++ owner.name ++ " comment"
  | invalidPackageName tag name suggestion =>
    capitalize tag ++ " name \"" ++ name ++ "\" is not valid; consider \"" ++ suggestion ++
      "\" instead"
  | emptyPackageName tag => "@" ++ tag ++ " tag must contain a name"
  | invalidAuthor =>
    "Content of the @author tag must be in the form \"Display Name <username@example.com>\""
  | copyrightSeparator => "A hyphen must be used between the earliest and latest year"
  | invalidYearSpan found suggestion =>
    "Invalid year span \"" ++ found ++ "\" found; consider \"" ++ suggestion ++ "\" instead"
  | invalidCopyright =>
    "@copyright tag must contain a year and the name of the copyright holder"
  | invalidLicense => "@license tag must contain a URL and a license name"
  | unmarkedVersion owner version suggestion =>
    "Invalid version \"" ++ version ++ "\" in " ++ owner.name ++ " comment; consider " ++
      suggestion ++ " instead"
  | propertyNotSeparated => "First property tag requires a blank newline before it"
  | propertyTypesNotAligned type column previous previousColumn =>
    "Property types " ++ type ++ " (" ++ Text.ofNat column ++ ") and " ++ previous ++ " (" ++
      Text.ofNat previousColumn ++ ") do not align"
  | propertiesNotAligned previous previousRank name rank =>
    "Properties " ++ previous ++ " (" ++ Text.ofNat previousRank ++ ") and " ++ name ++ " (" ++
      Text.ofNat rank ++ ") do not align"
  | missingPropertyName rank => "Missing parameter name at position " ++ Text.ofNat rank
  | missingPropertyType rank => "Missing type at position " ++ Text.ofNat rank
  | missingPropertyComment name rank =>
    "Missing comment for param \"" ++ name ++ "\" at position " ++ Text.ofNat rank
  | propertyCommentIndent => "The property comment must align with the property type"
  | propertyCommentLines => "Property comment lines do not align."
  | mixedPropertyIndent => "Mixed style of property indention"
  | propertyTypeSpacing => "Expected 1 space after the longest type"
  | propertyNameSpacing => "Expected 1 space after the longest variable name"

end Finding

/-- A finding at a token position. -/
structure Issue where
  position : Nat
  finding : Finding
  deriving DecidableEq, Repr

namespace Issue

/-- The severity of what was found. -/
def severity (i : Issue) : Severity := i.finding.severity

/-- The message of what was found. -/
def message (i : Issue) : Text := i.finding.message

end Issue

/-- An issue as it is shown to the user. The line is unknown when the position lies beyond the
stream. -/
structure Diagnostic where
  severity : Severity
  message : Text
  position : Nat
  line : Option Nat
  deriving DecidableEq, Repr

/-- The diagnostic of an issue in a stream. -/
def Issue.diagnostic (i : Issue) (s : Stream) : Diagnostic :=
  ⟨i.severity, i.message, i.position, s.lineAt? i.position⟩

/-- The block under examination: whose comment it is, the positions of its first and last token,
the line separator, and the markers of which a version has to contain one. -/
structure Scope where
  owner : Owner
  first : Nat
  last : Nat
  eol : Text
  versionMarkers : List Text
  deriving DecidableEq, Repr

/-- The issue of a finding on a line of the block. -/
def Scope.at (s : Scope) (line : Nat) (finding : Finding) : Issue := ⟨s.first + line, finding⟩

end DocCheck
