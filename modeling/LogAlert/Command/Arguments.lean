/-
# LogAlert.Command.Arguments -- the command line

The command line names the settings file and one of three commands: to run the scheduler, to run the
workers, or to import a rule file for an organization.
-/
import LogAlert.Command.Switch

set_option autoImplicit false

namespace LogAlert.Command

/-- What an import is told. -/
structure ImportOptions where
  file : String
  organization : String
  project : Option String
  /-- The recipients, in the order in which they were given. -/
  recipients : List String
  webhook : Option String
  /-- An alert rule is wanted, too. -/
  wantsAlertRule : Bool
deriving DecidableEq, Repr, Inhabited

/-- What is to be done. -/
inductive Task where
  | scheduler
  | worker
  | importRule (options : ImportOptions)
deriving DecidableEq, Repr, Inhabited

/-- The command as it is written. -/
def Task.name : Task → String
  | .scheduler => "scheduler"
  | .worker => "worker"
  | .importRule _ => "import-rule"

/-- A command line. -/
structure Arguments where
  /-- The path of the settings file. -/
  config : String
  command : Task
deriving DecidableEq, Repr, Inhabited

/-- The switches before the command. -/
def mainSwitches : List Switch := [helpSwitch, ⟨["--config", "-c"], "config", .value⟩]

/-- The switches of an import. -/
def importSwitches : List Switch :=
  [helpSwitch, ⟨["--org"], "org", .value⟩, ⟨["--project"], "project", .value⟩,
    ⟨["--email"], "email", .value⟩, ⟨["--webhook"], "webhook", .value⟩,
    ⟨["--create-alert-rule"], "create-alert-rule", .flag⟩]

/-- All values that were given for a key. -/
def Reading.all (reading : Reading) (key : String) : List String :=
  reading.settings.filterMap fun (k, value) => if k = key then some value else none

/-- The last value that was given for a key. -/
def Reading.last? (reading : Reading) (key : String) : Option String :=
  (reading.all key).getLast?

/-- Something that must be there, and a command line without words that mean nothing. -/
def demanded {α : Type} (extra : Bool) : Option α → Except Stop α
  | some x => if extra then .error .usage else .ok x
  | none => .error .usage

/-- The options of an import. -/
def importOptions? (reading : Reading) : Option ImportOptions :=
  match reading.operands, reading.last? "org" with
  | file :: _, some organization =>
    some ⟨file, organization, reading.last? "project", reading.all "email",
      reading.last? "webhook", (reading.last? "create-alert-rule").isSome⟩
  | _, _ => none

/-- Read the words from the command on. `extra` says that words before it mean nothing. -/
def readCommand (extra : Bool) : List String → Except Stop Task
  | "scheduler" :: rest => do
    let reading ← readLevel [helpSwitch] (.upTo 0) rest
    demanded (extra || reading.extra) (some .scheduler)
  | "worker" :: rest => do
    let reading ← readLevel [helpSwitch] (.upTo 0) rest
    demanded (extra || reading.extra) (some .worker)
  | "import-rule" :: rest => do
    let reading ← readLevel importSwitches (.upTo 1) rest
    demanded (extra || reading.extra) ((importOptions? reading).map .importRule)
  | _ => .error .usage

/-- The settings file that is used unless another one is named. -/
def defaultConfig : String := "config/config.yaml"

/-- Read a command line. The environment can name another settings file to be used by default. -/
def Arguments.read (config? : Option String) (line : List String) : Except Stop Arguments := do
  let reading ← readLevel mainSwitches .below line
  let command ← readCommand reading.extra reading.below
  return ⟨(reading.last? "config").getD (config?.getD defaultConfig), command⟩

/-- The exit code of a program that was stopped. -/
def Stop.exitCode : Stop → Nat
  | .help => 0
  | .usage => 2

end LogAlert.Command
