import DocCheck.Rule.Author
import DocCheck.Rule.Copyright
import DocCheck.Rule.PackageName
import DocCheck.Tag.Grammar

/-!
# The content of tags

The rules that the usual tags have. Each rule sees all occurrences of its tag. Tags that may appear
only once are examined through their last occurrence; that they were repeated is reported elsewhere.
-/

namespace DocCheck

namespace Occurrence

/-- The issues of a package name. -/
def checkPackageName (s : Scope) (o : Occurrence) : List Issue :=
  if o.content.isEmpty then [s.at o.line (.emptyPackageName o.name)]
  else if isUnderscoreName o.content then []
  else [s.at o.line (.invalidPackageName o.name o.content (suggestUnderscoreName o.content))]

/-- The issues of an author. -/
def checkAuthor (s : Scope) (o : Occurrence) : List Issue :=
  if o.content.isEmpty then [s.at o.line (.missingContent s.owner o.name)]
  else if Author.accepts o.content then []
  else [s.at o.line .invalidAuthor]

/-- The issues of a copyright. -/
def checkCopyright (s : Scope) (o : Occurrence) : List Issue :=
  match CopyrightYears.ofText? o.content with
  | none => [s.at o.line .invalidCopyright]
  | some .single => []
  | some (.span first separator last) =>
    (if separator = '-' then [] else [s.at o.line .copyrightSeparator]) ++
      if last < first then
        [s.at o.line (.invalidYearSpan (first ++ separator :: last) (last ++ '-' :: first))]
      else []

/-- The issues of a license, which needs a URL and a name. -/
def checkLicense (s : Scope) (o : Occurrence) : List Issue :=
  match o.element with
  | .keyValue value comment =>
    if !value.isEmpty && !comment.isEmpty then [] else [s.at o.line .invalidLicense]
  | _ => [s.at o.line .invalidLicense]

/-- The markers of a version, as they are listed to the user. -/
def listMarkers (markers : List Text) : Text :=
  Text.join " or " (markers.map fun m => "\"" ++ m ++ "\"")

/-- The issues of a version, which needs one of the markers if there are any. -/
def checkVersion (s : Scope) (o : Occurrence) : List Issue :=
  if o.content.isEmpty then [s.at o.line (.missingContent s.owner o.name)]
  else if s.versionMarkers.isEmpty || s.versionMarkers.any (o.content.contains ·) then []
  else [s.at o.line (.unmarkedVersion s.owner o.content (listMarkers s.versionMarkers))]

/-- The issues of a tag that only has to have content; a leaf never has any. -/
def checkNotEmpty (s : Scope) (o : Occurrence) : List Issue :=
  if o.element ≠ .leaf && o.content.isEmpty then
    [s.at o.line (.missingContent s.owner o.name)]
  else []

end Occurrence

namespace ContentRule

/-- The rule that examines every occurrence on its own. -/
def each (examine : Scope → Occurrence → List Issue) : ContentRule :=
  ⟨fun s occurrences => occurrences.flatMap (examine s)⟩

/-- The rule that examines the last occurrence only. -/
def last (examine : Scope → Occurrence → List Issue) : ContentRule :=
  ⟨fun s occurrences => occurrences.getLast?.toList.flatMap (examine s)⟩

section Single

variable {examine : Scope → Occurrence → List Issue} {s : Scope} {os : List Occurrence} {i : Issue}

/-- A rule for every occurrence finds in a single one what the examination finds there. -/
@[simp]
theorem check_each_singleton (o : Occurrence) : (each examine).check s [o] = examine s o :=
  List.flatMap_singleton ..

/-- A rule for the last occurrence finds in a single one what the examination finds there. -/
@[simp]
theorem check_last_singleton (o : Occurrence) : (last examine).check s [o] = examine s o :=
  List.flatMap_singleton ..

/-- What a rule for every occurrence finds, it finds in one of them. -/
theorem mem_check_each : i ∈ (each examine).check s os ↔ ∃ o ∈ os, i ∈ examine s o :=
  List.mem_flatMap

/-- What a rule for the last occurrence finds, it finds in that one. -/
theorem mem_check_last :
    i ∈ (last examine).check s os ↔ ∃ o, os.getLast? = some o ∧ i ∈ examine s o := by
  refine List.mem_flatMap.trans (exists_congr fun o => and_congr_left fun _ => ?_)
  exact Option.mem_toList

end Single

/-- A package is named once, by a package name. -/
def package : ContentRule := last Occurrence.checkPackageName

/-- A subpackage is named like a package. -/
def subpackage : ContentRule := last Occurrence.checkPackageName

/-- Every author is a name and a mail address. -/
def authors : ContentRule := each Occurrence.checkAuthor

/-- Every copyright has years and a holder. -/
def copyrights : ContentRule := each Occurrence.checkCopyright

/-- A license is a URL and a name. -/
def license : ContentRule := last Occurrence.checkLicense

/-- A version has one of the markers of the settings. -/
def version : ContentRule := last Occurrence.checkVersion

/-- The rule for tags that have none of their own. -/
def notEmpty : ContentRule := each Occurrence.checkNotEmpty

end ContentRule

/-- The rule that the content of a tag has to follow. -/
def Grammar.contentRule (g : Grammar) : ContentRule := g.rule.getD .notEmpty

end DocCheck
