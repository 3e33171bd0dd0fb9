import DocCheck.CommandLine.Run

/-!
# The command line

Gathers arguments, environment and files, runs the command on them and prints the outcome.
-/

namespace DocCheck.CommandLine

/-- What stands under a path on the disk. -/
def fileEntry (path : Text) : IO FileEntry := do
  match ← (do (← IO.FS.realPath (String.ofList path)).metadata).toBaseIO with
  | .error _ => return .absent
  | .ok found =>
    -- Directories, pipes and devices are no files, even where they could be read.
    if found.type != .file then
      return .notFile
    match ← (IO.FS.readBinFile (String.ofList path)).toBaseIO with
    | .ok bytes => return .content bytes
    | .error e => return .unreadable e.toString

/-- The values of the environment variables that set options. -/
def environment : IO (List (Text × Text)) := do
  let mut found := []
  for option in ValueOption.all do
    if let some value ← IO.getEnv (String.ofList option.variableName) then
      found := (option.variableName, (value : Text)) :: found
  return found

end DocCheck.CommandLine

open DocCheck DocCheck.CommandLine in
/-- Runs the command line and gives back its exit status. -/
def main (args : List String) : IO UInt32 := do
  let arguments : List Text := args.map String.toList
  let values ← environment
  let lookup (name : Text) : Option Text := values.lookup name
  let paths :=
    match Options.ofArguments arguments lookup with
    | .ok o => o.paths
    | .error _ => []
  let files : List (Text × FileEntry) ← paths.mapM fun path => do return (path, ← fileEntry path)
  let outcome := runCommand arguments lookup fun path => (files.lookup path).getD .absent
  let stdout ← IO.getStdout
  let stderr ← IO.getStderr
  let outputIsTerminal ← stdout.isTty
  let colouredErrors := outcome.coloursErrors outputIsTerminal (← stderr.isTty)
  stdout.putStr (String.ofList (outcome.output outputIsTerminal))
  stderr.putStr (String.ofList (outcome.errorOutput colouredErrors))
  return UInt32.ofNat outcome.status
