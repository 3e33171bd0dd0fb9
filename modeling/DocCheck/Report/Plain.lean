import DocCheck.Report.Basic

/-!
# Reports for people

A report is printed as a heading for each check with entries, a line for each entry and a summary.
On a terminal the parts are coloured.
-/

namespace DocCheck

/-- The parts of a report that have a colour. -/
inductive Ink where
  | heading
  | error
  | warning
  | location
  | success
  | failure
  deriving DecidableEq, Repr

namespace Ink

/-- The terminal codes of a colour. -/
def codes : Ink → Text
  | heading => "1;36"
  | error => "1;31"
  | warning => "1;33"
  | location => "2"
  | success => "1;32"
  | failure => "1;31"

/-- The sequence that switches a colour on. -/
def start (ink : Ink) : Text := "\x1b[" ++ ink.codes ++ "m"

/-- The sequence that switches all colours off. -/
def reset : Text := "\x1b[0m"

/-- A text in a colour, if colours are wanted. Where the text itself switches colours off, the
colour is switched on again. -/
def paint (ink : Ink) (coloured : Bool) (t : Text) : Text :=
  if coloured then ink.start ++ t.replace reset (reset ++ ink.start) ++ reset else t

end Ink

/-- The label of a severity and its colour. -/
def Severity.label : Severity → Ink × Text
  | .error => (.error, "[ERROR]")
  | .warning => (.warning, "[WARN]")

/-- The file of an entry, and its line if it is known. -/
def Entry.location (e : Entry) : Text :=
  match e.diagnostic.line with
  | some line => e.file ++ ":" ++ Text.ofNat line
  | none => e.file

/-- The line of an entry. -/
def Entry.text (e : Entry) (coloured : Bool) : Text :=
  let (ink, label) := e.diagnostic.severity.label
  "  " ++ ink.paint coloured label ++ " " ++ Ink.location.paint coloured e.location ++ " " ++
    e.diagnostic.message ++ "\n"

/-- The heading and the lines of a section; a section without entries is not shown. -/
def ReportSection.text (s : ReportSection) (coloured : Bool) : Text :=
  if s.entries.isEmpty then []
  else
    "\n" ++ Ink.heading.paint coloured ("==> " ++ s.name) ++ "\n" ++
      s.entries.flatMap (·.text coloured)

namespace Report

/-- The summary line. -/
def summary (r : Report) (coloured : Bool) : Text :=
  if r.errors = 0 && r.warnings = 0 then
    Ink.success.paint coloured "✓ All documentation comments are valid"
  else
    Ink.failure.paint coloured ("✗ Found " ++ Text.ofNat r.errors ++ " error(s) and " ++
      Text.ofNat r.warnings ++ " warning(s)")

/-- The text of the report. -/
def text (r : Report) (coloured : Bool) : Text :=
  r.sections.flatMap (·.text coloured) ++ "\n" ++ r.summary coloured ++ "\n"

end Report

/-- The line that tells why a run could not start. -/
def startupErrorText (message : Text) (coloured : Bool) : Text :=
  Ink.failure.paint coloured "Error:" ++ " " ++ message ++ "\n"

end DocCheck
