import MethodFlow.CommandLine

namespace MethodFlow.Command

/-- The text of the file that the arguments name, if they name one. -/
def fileText (arguments : List String) : IO (Except String String) :=
  match parse arguments with
  | .ok (.report _ (some file)) => do
    try
      return .ok (← IO.FS.readFile file)
    catch failure =>
      return .error (toString failure)
  | .ok (.report _ none) => return .error "Missing listing file"
  | _ => return .ok ""

end MethodFlow.Command

open MethodFlow

/-- Writes the report to standard output and what went wrong to standard error. -/
def main (arguments : List String) : IO UInt32 := do
  match ← Command.fileText arguments with
  | .error message =>
    IO.eprintln ("Error: " ++ message)
    return 1
  | .ok text =>
    let report := Command.run arguments text
    IO.print report.output
    IO.eprint report.errors
    return report.status.toUInt32
