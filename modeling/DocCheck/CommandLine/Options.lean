import DocCheck.Check

/-!
# Command-line options

Arguments are read from left to right, and the first one that is refused or that asks for the
version or the help text decides. An option that is not among the arguments may be set by its
environment variable.
-/

namespace DocCheck

/-- From which severity on issues make a run fail. -/
inductive FailureLevel where
  | warning
  | error
  deriving DecidableEq, Repr

/-- The failure level with the given name. -/
def FailureLevel.ofName? (t : Text) : Option FailureLevel :=
  if t = "warning" then some .warning else if t = "error" then some .error else none

/-- The checks that can be asked for. -/
inductive CheckKind where
  | fileComment
  | classComment
  deriving DecidableEq, Repr

namespace CheckKind

/-- The checks in the order in which they run by default. -/
def all : List CheckKind := [fileComment, classComment]

/-- The check that is asked for. -/
def check : CheckKind → Check
  | fileComment => .fileComment
  | classComment => .classComment

/-- The name under which a check is asked for, which is its own. -/
def name (k : CheckKind) : Text := k.check.name

/-- The check with a name on the command line. -/
def ofName? (t : Text) : Option CheckKind := all.find? (·.name = t)

end CheckKind

/-- What a run is asked to do. -/
structure Options where
  paths : List Text
  checks : List CheckKind := CheckKind.all
  /-- The markers of versions, if others than the usual ones are wanted. -/
  versionMarkers : Option (List Text) := none
  directiveMarker : Text := "vim:"
  failureLevel : FailureLevel := .warning
  json : Bool := false
  verbosity : Nat := 0
  deriving DecidableEq, Repr

/-- The checks of a run, in the order in which they were asked for. -/
def Options.runner (o : Options) : List Check := o.checks.map (·.check)

/-- The settings of the checks. An empty marker stands for no marker. -/
def Options.settings (o : Options) : Settings :=
  let usual : Settings := { directiveMarker := o.directiveMarker }
  match o.versionMarkers with
  | none => usual
  | some markers => { usual with versionMarkers := markers.filter (!·.isEmpty) }

/-- The options that take a value. -/
inductive ValueOption where
  | checks
  | versionMarker
  | directiveMarker
  | failureLevel
  deriving DecidableEq, Repr

namespace ValueOption

/-- All options that take a value. -/
def all : List ValueOption := [checks, versionMarker, directiveMarker, failureLevel]

/-- The name of an option, without its dashes. -/
def name : ValueOption → Text
  | checks => "checks"
  | versionMarker => "version-marker"
  | directiveMarker => "directive-marker"
  | failureLevel => "check-failure-level"

/-- The environment variable that sets an option. -/
def variableName : ValueOption → Text
  | checks => "CHECKS"
  | versionMarker => "VERSION_MARKERS"
  | directiveMarker => "DIRECTIVE_MARKER"
  | failureLevel => "CHECK_FAILURE_LEVEL"

/-- The option with a long name. -/
def ofName? (t : Text) : Option ValueOption := all.find? (·.name = t)

end ValueOption

/-- The options without a value. -/
inductive Flag where
  | json
  | verbose
  | version
  | help
  deriving DecidableEq, Repr

namespace Flag

/-- All options without a value. -/
def all : List Flag := [json, verbose, version, help]

/-- The long name of a flag, without its dashes. -/
def name : Flag → Text
  | json => "json"
  | verbose => "verbose"
  | version => "version"
  | help => "help"

/-- The letter of a flag. -/
def letter : Flag → Char
  | json => 'j'
  | verbose => 'v'
  | version => 'V'
  | help => 'h'

/-- The flag with a long name. -/
def ofName? (t : Text) : Option Flag := all.find? (·.name = t)

/-- The flag with a letter. -/
def ofLetter? (c : Char) : Option Flag := all.find? (·.letter = c)

end Flag

/-- Why arguments are refused. -/
inductive UsageFault where
  | unknownOption (argument : Text)
  | missingValue (option : ValueOption)
  | unexpectedValue (flag : Flag)
  | repeatedOption (option : ValueOption)
  | repeatedFlag (flag : Flag)
  | invalidValue (option : ValueOption) (value : Text)
  | emptyPath
  | missingPath
  deriving DecidableEq, Repr

/-- The wording of a refusal. -/
def UsageFault.message : UsageFault → Text
  | unknownOption argument => "unexpected argument '" ++ argument ++ "' found"
  | missingValue option => "a value is required for '--" ++ option.name ++ "'"
  | unexpectedValue flag => "unexpected value for '--" ++ flag.name ++ "'"
  | repeatedOption option => "'--" ++ option.name ++ "' cannot be used multiple times"
  | repeatedFlag flag => "'--" ++ flag.name ++ "' cannot be used multiple times"
  | invalidValue option value =>
    "invalid value '" ++ value ++ "' for '--" ++ option.name ++ "'"
  | emptyPath => "a path must not be empty"
  | missingPath => "a path is required"

/-- What ends the reading of arguments before a run. -/
inductive EarlyExit where
  | rejected (fault : UsageFault)
  | version
  | help
  deriving DecidableEq, Repr

/-- What has been read of the arguments. -/
structure Arguments where
  paths : List Text := []
  checks : Option (List CheckKind) := none
  versionMarkers : Option (List Text) := none
  directiveMarker : Option Text := none
  failureLevel : Option FailureLevel := none
  json : Bool := false
  verbosity : Nat := 0
  deriving DecidableEq, Repr

namespace Arguments

/-- Whether an option has been given. -/
def isSet (a : Arguments) : ValueOption → Bool
  | .checks => a.checks.isSome
  | .versionMarker => a.versionMarkers.isSome
  | .directiveMarker => a.directiveMarker.isSome
  | .failureLevel => a.failureLevel.isSome

/-- Takes a value of an option into account. Lists are separated by commas and grow when the option
is repeated; the other options can be given once. -/
def set (a : Arguments) (option : ValueOption) (value : Text) : Except EarlyExit Arguments :=
  let invalid := Except.error (.rejected (.invalidValue option value))
  let repeated := Except.error (.rejected (.repeatedOption option))
  match option with
  | .checks =>
    match (value.splitOn ",").mapM CheckKind.ofName? with
    | some checks => .ok { a with checks := some (a.checks.getD [] ++ checks) }
    | none => invalid
  | .versionMarker =>
    .ok { a with versionMarkers := some (a.versionMarkers.getD [] ++ value.splitOn ",") }
  | .directiveMarker =>
    if a.directiveMarker.isSome then repeated else .ok { a with directiveMarker := some value }
  | .failureLevel =>
    if a.failureLevel.isSome then repeated
    else
      match FailureLevel.ofName? value with
      | some level => .ok { a with failureLevel := some level }
      | none => invalid

/-- Takes a flag into account. -/
def raise (a : Arguments) : Flag → Except EarlyExit Arguments
  | .json =>
    if a.json then .error (.rejected (.repeatedFlag .json)) else .ok { a with json := true }
  | .verbose => .ok { a with verbosity := a.verbosity + 1 }
  | .version => .error .version
  | .help => .error .help

/-- Takes a cluster of flags by their letters into account. -/
def raiseLetters (a : Arguments) (letters : Text) : Except EarlyExit Arguments :=
  letters.foldlM (fun a c =>
    match Flag.ofLetter? c with
    | some flag => a.raise flag
    | none => .error (.rejected (.unknownOption ['-', c]))) a

/-- Takes a path into account. -/
def addPath (a : Arguments) (path : Text) : Except EarlyExit Arguments :=
  if path.isEmpty then .error (.rejected .emptyPath) else .ok { a with paths := a.paths ++ [path] }

/-- Whether an argument is read as an option rather than a value: it starts with a dash and is
longer than that. -/
def looksLikeOption : Text → Bool
  | '-' :: _ :: _ => true
  | _ => false

/-- The name of a long option, and the value that is attached to it. -/
def splitLong (option : Text) : Text × Option Text :=
  match option.cut? "=" with
  | some (name, value) => (name, some value)
  | none => (option, none)

/-- Reads arguments. -/
def read (a : Arguments) : List Text → Except EarlyExit Arguments
  | [] => .ok a
  | ['-', '-'] :: rest => rest.foldlM addPath a
  | ('-' :: '-' :: long) :: rest =>
    let (name, value?) := splitLong long
    match ValueOption.ofName? name, Flag.ofName? name with
    | some option, _ =>
      match value?, rest with
      | some value, rest =>
        match a.set option value with
        | .ok a => a.read rest
        | .error stop => .error stop
      | none, value :: rest =>
        if looksLikeOption value then .error (.rejected (.missingValue option))
        else
          match a.set option value with
          | .ok a => a.read rest
          | .error stop => .error stop
      | none, [] => .error (.rejected (.missingValue option))
    | none, some flag =>
      if value?.isSome then .error (.rejected (.unexpectedValue flag))
      else
        match a.raise flag with
        | .ok a => a.read rest
        | .error stop => .error stop
    | none, none => .error (.rejected (.unknownOption ('-' :: '-' :: long)))
  | ('-' :: c :: letters) :: rest =>
    match a.raiseLetters (c :: letters) with
    | .ok a => a.read rest
    | .error stop => .error stop
  | path :: rest =>
    match a.addPath path with
    | .ok a => a.read rest
    | .error stop => .error stop

/-- Takes the environment into account, for options that were not given. -/
def addEnvironment (a : Arguments) (environment : Text → Option Text) :
    Except EarlyExit Arguments :=
  ValueOption.all.foldlM (fun a option =>
    match environment option.variableName with
    | some value => if a.isSet option then .ok a else a.set option value
    | none => .ok a) a

/-- The options of complete arguments; at least one path is needed. -/
def options (a : Arguments) : Except EarlyExit Options :=
  if a.paths.isEmpty then .error (.rejected .missingPath)
  else
    let usual : Options := { paths := a.paths }
    .ok { usual with
      checks := a.checks.getD usual.checks
      versionMarkers := a.versionMarkers
      directiveMarker := a.directiveMarker.getD usual.directiveMarker
      failureLevel := a.failureLevel.getD usual.failureLevel
      json := a.json
      verbosity := a.verbosity }

end Arguments

/-- The options of a command line. -/
def Options.ofArguments (arguments : List Text) (environment : Text → Option Text) :
    Except EarlyExit Options := do
  let a ← Arguments.read {} arguments
  let a ← a.addEnvironment environment
  a.options

end DocCheck
