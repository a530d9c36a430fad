import LiveFragment.Backend.NullAdapter
import LiveFragment.CommandLine.Run

namespace LiveFragment

open LiveFragment.Backend LiveFragment.CommandLine LiveFragment.Files

/-- Reads a file as text. -/
def readFile (path : String) : IO (Except FileError String) := do
  try
    match String.fromUTF8? (← IO.FS.readBinFile path) with
    | some text => return .ok text
    | none => return .error .invalidText
  catch
    | .noFileOrDirectory .. => return .error .notFound
    | .permissionDenied .. => return .error .permissionDenied
    | error => return .error (.other (toString error))

/-- The machine that the program runs on. -/
def machine : IO (Host NullAdapter IO) := do
  return {
    read := readFile
    save := fun _ _ => return false
    pictures := return default
    configDirectory := ← IO.getEnv "SHADERDECK_CONFIG_DIR"
    home := ← IO.getEnv "HOME"
    judge := fun _ => none
    gpu := default
    services := default
    start := ← IO.monoNanosNow }

/-- The messages of a failure; what is behind the first one is its cause. -/
def failureText (failure : Failure) : String :=
  match failure.messages with
  | [] => ""
  | [message] => "Error: " ++ message ++ "\n"
  | message :: causes =>
    "Error: " ++ message ++ "\n\nCaused by:\n" ++
      String.join (causes.map fun cause => "    " ++ cause ++ "\n")

end LiveFragment

open LiveFragment LiveFragment.CommandLine in
def main (words : List String) : IO UInt32 := do
  match Invocation.ofWords words with
  | .error refusal =>
    if refusal.isAnswer then
      IO.print refusal.text
      return 0
    IO.eprint refusal.text
    return 2
  | .ok invocation =>
    let report ← run (← machine) invocation
    IO.print report.output
    IO.eprint report.diagnostics
    match report.failure with
    | none => return 0
    | some failure =>
      IO.eprint (failureText failure)
      return 1
