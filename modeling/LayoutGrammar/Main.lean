import LayoutGrammar.Command.Run

/-!
# The command

Reads the file that the arguments name, carries the run out and prints what it left.
-/

namespace LayoutGrammar.Command

/-- The contents of a file, if it can be read. -/
def readContents (path : String) : IO (Option ByteArray) := do
  try
    let contents ← IO.FS.readBinFile (shortPath path)
    pure (some contents)
  catch _ => pure none

/-- Prints what a run left and returns its exit code. -/
def printOutcome (outcome : Outcome) : IO UInt32 := do
  IO.print outcome.output
  for e in outcome.log do
    IO.eprintln (logLine e)
  if let some e := outcome.failure then
    IO.eprintln e.message
  pure outcome.exitCode.toUInt32

end LayoutGrammar.Command

open LayoutGrammar Command

/-- Carries out what the arguments ask for. -/
def main (args : List String) : IO UInt32 := do
  match Arguments.ofTexts args with
  | .ok arguments => do
    let contents ← readContents arguments.file
    printOutcome (run .standard arguments contents)
  | .error .help => do
    IO.print usage
    pure 0
  | .error .misuse => do
    IO.eprint usage
    pure 2
