/-
# LogAlert.Main -- the program

The program reads the files that its command line names, carries the command out on them, prints
what there is to say and ends with the exit code of the command. Rows are kept in memory until then.
-/
import LogAlert.Command.Run

set_option autoImplicit false

namespace LogAlert

/-- The files among these paths that can be read, with their texts. -/
def readFiles (paths : List String) : IO (List (String × String)) :=
  paths.filterMapM fun (path : String) => do
    try
      let text ← IO.FS.readFile path
      return some (path, text)
    catch _ => return none

/-- The variables of the environment that the command line and the settings refer to. -/
def readEnvironment (texts : List String) : IO Settings.Environment := do
  let names := "CONFIG_PATH" :: texts.flatMap fun text => Settings.references text.toList
  names.filterMapM fun name => do return (← IO.getEnv name).map fun value => (name, value)

/-- The paths of the files that a command line names. -/
def pathsOf (arguments : Command.Arguments) : List String :=
  arguments.config ::
    match arguments.command with
    | .importRule options => [options.file]
    | _ => []

end LogAlert

/-- Carry out a command line. -/
def main (line : List String) : IO UInt32 := do
  let arguments := LogAlert.Command.Arguments.read (← IO.getEnv "CONFIG_PATH") line
  let files ← match arguments with
    | .ok arguments => LogAlert.readFiles (LogAlert.pathsOf arguments)
    | .error _ => pure []
  let environment ← LogAlert.readEnvironment (files.map (·.2))
  let (outcome, _) := LogAlert.Command.run ⟨files, [], ⟨"row", 0⟩⟩ environment line
  IO.print outcome.output
  match outcome.ending with
  | .exit code => return code.toUInt32
  | .started => return 0
  | .broken failure =>
    IO.eprintln (failure.message?.getD "The database failed.")
    return 1
