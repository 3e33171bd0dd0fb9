import DocCheck.Block
import DocCheck.Comment.Parser
import DocCheck.Rule.Alignment
import DocCheck.Rule.Layout

/-!
# Checks

A check examines the documentation comments of one sort in a stream: the file comment after the
open tag, or the comments of the class-like declarations. A comment that is missing, written as a
plain comment, unreadable or empty has that one issue; any other comment is held against the
rules.
-/

namespace DocCheck

/-- What the user can adjust. -/
structure Settings where
  /-- A version has to contain one of these; without any, every version will do. -/
  versionMarkers : List Text := ["//autogentag//", "//autogen//"]
  /-- A plain comment that contains this may precede the file comment, unless it is empty. -/
  directiveMarker : Text := "vim:"
  /-- Further tags for file and class comments. -/
  extraTags : List Grammar := []

namespace Settings

/-- The tags of file comments. -/
def fileVocabulary (cfg : Settings) : Vocabulary := Vocabulary.fileComment.insertAll cfg.extraTags

/-- The tags of class comments. -/
def classVocabulary (cfg : Settings) : Vocabulary :=
  Vocabulary.classComment.insertAll cfg.extraTags

end Settings

/-- The scope of a block of the given owner. -/
def Block.scope (b : Block) (owner : Owner) (s : Stream) (cfg : Settings) : Scope :=
  ⟨owner, b.first, b.last, s.eol, cfg.versionMarkers⟩

/-- Reads a block, or says why it cannot be examined. -/
def Block.read (b : Block) (v : Vocabulary) (scope : Scope) : Except Issue Comment :=
  match Comment.parse b.text v scope.eol with
  | .error e => .error (scope.at e.line (.malformed e.tag e.fault))
  | .ok c => if c.isEmpty then .error (scope.at 0 (.emptyBlock scope.owner)) else .ok c

/-- The issues with the file comment of the open tag at `p`. -/
def fileIssues (cfg : Settings) (s : Stream) (p : Nat) : List Issue :=
  match s.fileBlock p cfg.directiveMarker with
  | .notApplicable => []
  | .missing i => [⟨i, .missingBlock .file⟩]
  | .wrongStyle i => [⟨i, .wrongStyle .file⟩]
  | .found b =>
    let scope := b.scope .file s cfg
    match b.read cfg.fileVocabulary scope with
    | .error issue => [issue]
    | .ok c => c.checkLayout cfg.fileVocabulary scope

/-- What is known of the comment of a class-like declaration. -/
structure ClassResult where
  issues : List Issue
  /-- The property declarations, if the comment could be examined. -/
  properties : Option (List Property) := none
  deriving DecidableEq, Repr

/-- The issues with tags outside the vocabulary. -/
def Comment.checkUnknown (c : Comment) (s : Scope) : List Issue :=
  c.unknown.map fun u => s.at u.line (.unknownTag s.owner u.name)

/-- Examines the comment of the class-like declaration whose keyword is at `c`. -/
def examineClass (cfg : Settings) (s : Stream) (c : Nat) : ClassResult :=
  match s.classBlock c with
  | .notApplicable => ⟨[], none⟩
  | .missing i => ⟨[⟨i, .missingBlock .declaration⟩], none⟩
  | .wrongStyle i => ⟨[⟨i, .wrongStyle .declaration⟩], none⟩
  | .found b =>
    let scope := b.scope .declaration s cfg
    match b.read cfg.classVocabulary scope with
    | .error issue => ⟨[issue], none⟩
    | .ok comment =>
      ⟨comment.checkSpacing scope ++ checkProperties comment.properties scope ++
          comment.checkUnknown scope ++ comment.checkTags cfg.classVocabulary scope,
        some comment.properties⟩

/-- The issues with the comment of the class-like declaration whose keyword is at `c`. -/
def classIssues (cfg : Settings) (s : Stream) (c : Nat) : List Issue :=
  (examineClass cfg s c).issues

/-- Reports an issue behind those that were reported before. -/
def report (i : Issue) : StateM (List Issue) Unit := modify (· ++ [i])

/-- Reports the issues with the file comment of the open tag at `p`. -/
def reportFile (cfg : Settings) (s : Stream) (p : Nat) : StateM (List Issue) Unit :=
  (fileIssues cfg s p).forM report

/-- Reports the issues with the comment of the declaration at `c` and gives back its properties. -/
def reportClass (cfg : Settings) (s : Stream) (c : Nat) :
    StateM (List Issue) (Option (List Property)) := do
  let result := examineClass cfg s c
  result.issues.forM report
  return result.properties

/-- A check: its name, and the issues that it finds in a stream. Any function can be run as a
check. -/
structure Check where
  name : Text
  run : Settings → Stream → List Issue

namespace Check

/-- The check of the file comments: every open tag is examined. -/
def fileComment : Check where
  name := "file-comment"
  run cfg s := (((s.positions (· = .openTag)).forM (reportFile cfg s)).run []).2

/-- The check of the comments of declarations: every class-like keyword is examined. -/
def classComment : Check where
  name := "class-comment"
  run cfg s := (((s.positions (·.isClassLike)).forM (discard <| reportClass cfg s ·)).run []).2

/-- The checks of this library, in the order in which they run by default. -/
def all : List Check := [fileComment, classComment]

/-- The issues that each of several checks finds, by the name of the check. -/
def runEach (checks : List Check) (cfg : Settings) (s : Stream) : List (Text × List Issue) :=
  checks.map fun check => (check.name, check.run cfg s)

/-- The issues that several checks find, gathered check by check. -/
def runAll (checks : List Check) (cfg : Settings) (s : Stream) : List Issue :=
  checks.foldl (fun found check => found ++ check.run cfg s) []

end Check

end DocCheck
