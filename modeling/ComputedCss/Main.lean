import ComputedCss.CommandLine.Run

/-!
# The program

Reads the file of settings, if one is named, and prints the response of the command.
-/

open ComputedCss CommandLine

/-- The contents of a file, if it can be read. -/
def contents? (path : String) : IO (Option String) := do
  try
    let text ← IO.FS.readFile path
    pure (some text)
  catch _ => pure none

/-- Runs the command. -/
def main (words : List String) : IO UInt32 := do
  let readers := Readers.standard
  let path := (readers.options words).toOption.bind Options.configPath
  let text ← match path with
    | some path => contents? path
    | none => pure none
  let response := run words (fun _ => text) readers
  IO.print response.output
  IO.eprint (joinLines response.errors)
  pure response.exitCode.toUInt32
