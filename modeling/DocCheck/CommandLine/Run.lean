import DocCheck.CommandLine.Folder
import DocCheck.CommandLine.Options
import DocCheck.Dump
import DocCheck.Report.Plain

/-!
# A run of the command line

A run loads every token dump before it prints anything, so that a dump that cannot be loaded leaves
nothing but its message. Otherwise it prints one report over all files, and its exit status says
whether the report has issues of the failure level.
-/

namespace DocCheck

/-- Why an input cannot be examined. -/
inductive InputFault where
  | notFile (path : Text)
  | unreadable (path reason : Text)
  | unparsable (path : Text) (fault : Json.Fault)
  | emptyEol (path : Text)

/-- The wording of a fault in a dump. It is a wording of its own: what a dump has to look like is
settled by its reader, not by what is said about a text that does not. -/
def Json.Fault.message : Json.Fault → Text
  | .ended => "the text ends too early"
  | .malformed => "the text is not valid JSON"
  | .mismatch m => m.message

namespace InputFault

/-- What is wrong with an input. -/
def summary : InputFault → Text
  | notFile path => "invalid configuration: input '" ++ path ++ "' is not a file"
  | unreadable path reason => "failed to read token dump '" ++ path ++ "': " ++ reason
  | unparsable path _ => "failed to parse token dump '" ++ path ++ "'"
  | emptyEol path => "token dump '" ++ path ++ "' has an empty line separator"

/-- What is wrong with an input, and the place of it if that is known. -/
def message (f : InputFault) : Text :=
  match f with
  | unparsable _ fault => f.summary ++ ": " ++ fault.message
  | _ => f.summary

end InputFault

/-- Whether an entry is a file. -/
def FileEntry.isFile : FileEntry → Bool
  | absent | notFile => false
  | unreadable _ | content _ => true

/-- Loads the stream of a dump. -/
def loadStream (path : Text) (entry : FileEntry) : Except InputFault Stream :=
  match entry with
  | .absent | .notFile => .error (.notFile path)
  | .unreadable reason => .error (.unreadable path reason)
  | .content bytes =>
    match String.fromUTF8? bytes with
    | none => .error (.unreadable path "stream did not contain valid UTF-8")
    | some dump =>
      match Dump.read dump with
      | .error fault => .error (.unparsable path fault)
      | .ok s => if s.eol.isEmpty then .error (.emptyEol path) else .ok s

/-- Adds what the checks find in a file to a report. -/
def Report.addFile (r : Report) (checks : List Check) (cfg : Settings) (path : Text) (s : Stream) :
    Report :=
  (Check.runEach checks cfg s).foldl (fun r (name, issues) => r.add name path issues s) r

/-- The report on all files, or what is wrong with the first input that is no file, or else with
the first one that cannot be loaded. -/
def Options.report (o : Options) (files : Text → FileEntry) : Except InputFault Report :=
  match o.paths.find? fun path => !(files path).isFile with
  | some path => .error (.notFile path)
  | none =>
    o.paths.foldlM (fun r path =>
      (loadStream path (files path)).map (r.addFile o.runner o.settings path)) .empty

/-- How a run ends. -/
inductive Outcome where
  | rejected (fault : UsageFault)
  | version
  | help
  | failed (options : Options) (fault : InputFault)
  | finished (options : Options) (report : Report)

/-- Runs a command line on files. -/
def runCommand (arguments : List Text) (environment : Text → Option Text)
    (files : Text → FileEntry) : Outcome :=
  match Options.ofArguments arguments environment with
  | .error (.rejected fault) => .rejected fault
  | .error .version => .version
  | .error .help => .help
  | .ok o =>
    match o.report files with
    | .error fault => .failed o fault
    | .ok r => .finished o r

/-- Whether a report has issues of a failure level. -/
def FailureLevel.fails (level : FailureLevel) (r : Report) : Bool :=
  0 < r.errors || (level = .warning && 0 < r.warnings)

/-- The name and the version of the program. -/
def versionText : Text := "docblock-lint 0.4.0\n"

/-- The help text. -/
def helpText : Text :=
  "Documentation comment validator - checks file and class doc comments\n\n" ++
  "Usage: docblock-lint [OPTIONS] <PATHS>...\n\n" ++
  "Arguments:\n  <PATHS>...  Token dump files to validate\n\n" ++
  "Options:\n" ++
  "      --checks <CHECKS>                            " ++
  "Comma-separated list of checks to run [env: CHECKS=] " ++
  "[possible values: file-comment, class-comment]\n" ++
  "      --version-marker <VERSION_MARKERS>           " ++
  "Markers of which a @version tag must contain one [env: VERSION_MARKERS=]\n" ++
  "      --directive-marker <DIRECTIVE_MARKER>        " ++
  "Marker of an editor directive comment allowed before the file comment " ++
  "[env: DIRECTIVE_MARKER=] [default: vim:]\n" ++
  "      --check-failure-level <CHECK_FAILURE_LEVEL>  " ++
  "Failure level for validation issues [env: CHECK_FAILURE_LEVEL=] [default: warning] " ++
  "[possible values: warning, error]\n" ++
  "  -j, --json                                       " ++
  "Output validation results as JSON instead of human-readable format\n" ++
  "  -v, --verbose...                                 Increase verbosity level\n" ++
  "  -h, --help                                       Print help\n" ++
  "  -V, --version                                    Print version\n"

namespace Outcome

/-- The exit status. -/
def status : Outcome → Nat
  | rejected _ => 2
  | version | help => 0
  | failed .. => 1
  | finished o r => if o.failureLevel.fails r then 3 else 0

/-- What is printed on the output, in colours if they are wanted. -/
def output (coloured : Bool) : Outcome → Text
  | rejected _ | failed .. => []
  | version => versionText
  | help => helpText
  | finished o r => if o.json then r.jsonText else r.text coloured

/-- What is printed on the error output, in colours if they are wanted. -/
def errorOutput (coloured : Bool) : Outcome → Text
  | rejected fault => "error: " ++ fault.message ++ "\n"
  | failed _ fault => startupErrorText fault.message coloured
  | _ => []

/-- Whether an error is told in colours, by which of the two outputs are terminals. What is said of
an input that is no file follows the error output; what is said of a dump that cannot be loaded
follows the output. With a report as JSON there are no colours at all. -/
def coloursErrors (outputIsTerminal errorIsTerminal : Bool) : Outcome → Bool
  | failed o (.notFile _) => !o.json && errorIsTerminal
  | failed o _ => !o.json && outputIsTerminal
  | _ => false

end Outcome

end DocCheck
