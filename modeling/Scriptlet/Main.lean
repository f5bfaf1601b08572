import Scriptlet.CommandLine

/-!
# The program
-/

open Scriptlet

/-- The contents of a file that can be read. -/
def readPath (path : String) : IO (Option String) := do
  try
    return some (← IO.FS.readFile path)
  catch _ => return none

/-- Runs the script a command line names. -/
def main (words : List String) : IO UInt32 := do
  let contents ←
    match CommandLine.read? words with
    | some (arguments, path) => if arguments.isFile then readPath path else pure none
    | none => pure none
  match CommandLine.report? (fun _ => contents) words with
  | some report =>
    (← IO.getStdout).putStr report.output
    (← IO.getStderr).putStr report.errors
    return report.exitCode.toUInt32
  | none =>
    (← IO.getStderr).putStrLn
      "usage: [--file] [--resolve-only] [--permit-ambiguous] [--max-call-depth N] SCRIPT"
    return 2
