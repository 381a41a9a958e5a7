import Registrar.CommandLine.Execution

/-!
Contract: the command with its files and streams.

Owns: where the unit is read from, and where records and reports are written to.

Does not own: what is read and written.
-/

set_option autoImplicit false

namespace Registrar.CommandLine

/-- The text of the unit. -/
def readInput (options : Options) : IO String := do
  match options.input with
  | some "-" | none => (← IO.getStdin).readToEnd
  | some path => IO.FS.readFile path

/-- Writes what a run leaves. -/
def writeExecution (options : Options) (execution : Execution) : IO Unit := do
  match execution.outline with
  | some outline => IO.eprint outline
  | none => pure ()
  for warning in execution.warnings do
    IO.eprintln warning.text
  let bytes := execution.output.toByteArray
  match options.output with
  | some path => IO.FS.writeBinFile path bytes
  | none => (← IO.getStdout).write bytes

/-- Reports why a run ended, and gives the number that it ends with. -/
def fail (error : RunError) : IO UInt32 := do
  for line in error.report do
    IO.eprintln line
  match error with
  | .usage _ => IO.eprintln "Run 'bindplan --help' for usage."
  | _ => pure ()
  return error.exitCode

def run (options : Options) : IO UInt32 := do
  if options.showsHelp then
    IO.println helpText
    return 0
  else if options.showsVersion then
    IO.println versionText
    return 0
  else
    let input ← readInput options
    match Execution.ofText options input with
    | .ok execution =>
        writeExecution options execution
        return 0
    | .error error => fail error

end Registrar.CommandLine

/-- The command. -/
def main (arguments : List String) : IO UInt32 := do
  match Registrar.CommandLine.Options.ofArguments arguments with
  | .error error => Registrar.CommandLine.fail (.usage error)
  | .ok options =>
      try Registrar.CommandLine.run options
      catch problem =>
        IO.eprintln ("error: " ++ toString problem)
        return 1
