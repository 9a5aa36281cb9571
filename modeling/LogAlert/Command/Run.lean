/-
# LogAlert.Command.Run -- carrying out a command

A command begins with reading the settings; one that cannot be read is reported. The scheduler and
the workers start if the sections of the settings that they use can be read and name a database. To
have a rule imported means to store the rule of a file, and to report what was stored, or why
nothing was.
-/
import LogAlert.Command.Arguments
import LogAlert.Command.Workspace
import LogAlert.Settings.Config
import LogAlert.Store.Import

set_option autoImplicit false

namespace LogAlert.Command

/-- Why a command breaks off. -/
inductive Failure where
  | store (error : StoreError)
  /-- There is no file at this path. -/
  | noFile (path : String)
  /-- There is a folder at this path. -/
  | folder (path : String)
  /-- The path leads through a file. -/
  | beyondFile (path : String)
  /-- The settings name no database. -/
  | noDatabase
deriving DecidableEq, Repr

/-- The failure for a fault in settings or rules. -/
def Failure.fault (cause : Fault) : Failure := .store (.fault cause)

/-- The message for a command that breaks off; failures of a database have none. -/
def Failure.message? : Failure → Option String
  | .store (.fault cause) => some cause.message
  | .store _ => none
  | .noFile path => some ("[Errno 2] No such file or directory: " ++ Text.quoted path)
  | .folder path => some ("[Errno 21] Is a directory: " ++ Text.quoted path)
  | .beyondFile path => some ("[Errno 20] Not a directory: " ++ Text.quoted path)
  | .noDatabase => none

/-- How a command ends. -/
inductive Ending where
  /-- The command ends with this exit code. -/
  | exit (code : Nat)
  /-- The scheduler or the workers run. -/
  | started
  | broken (failure : Failure)
deriving DecidableEq, Repr

/-- The outcome of a command. -/
structure Outcome where
  ending : Ending
  /-- The printed lines. -/
  lines : List String
deriving DecidableEq, Repr

/-- The printed text. -/
def Outcome.output (outcome : Outcome) : String :=
  String.join (outcome.lines.map (· ++ "\n"))

/-- The text of the file at a path. -/
def readFile (w : Workspace) (path : String) : Except Failure String :=
  match w.place path with
  | .file text => .ok text
  | .nothing => .error (.noFile path)
  | .folder => .error (.folder path)
  | .beyondFile => .error (.beyondFile path)

/-- The settings in the file at a path. -/
def settings (w : Workspace) (environment : Settings.Environment) (path : String) :
    Except Failure (Except String (List (Value × Value))) :=
  let content : Except Failure (Option String) :=
    match w.place path with
    | .file text => .ok (some text)
    | .folder => .error (.folder path)
    | _ => .ok none
  match content with
  | .error failure => .error failure
  | .ok content =>
    match Settings.load environment path content with
    | .ok settings => .ok (.ok settings)
    | .error (.scalar cause) => .error (.fault cause)
    | .error error => .ok (.error error.message)

/-- The place for log messages can be read from the settings. -/
def checkLogging (settings : List (Value × Value)) : Except Fault Unit := do
  let section_ := (Value.at? settings "logging").getD (.map [])
  let level ← section_.getOf "level"
  let _ ← level.display
  let file ← section_.getOf "file"
  match file with
  | .text _ => pure ()
  | .bytes _ => pure ()
  | v => if v.truthy then throw (.noPath v.kindName)

/-- The location of the database that the settings name. -/
def database (settings : List (Value × Value)) : Except Failure Location :=
  match (do (← (Value.map settings).demand "database").demand "url" : Except Fault Value) with
  | .error cause => .error (.fault cause)
  | .ok (.text url) =>
    match Location.ofUrl url with
    | some location => .ok location
    | none => .error .noDatabase
  | .ok _ => .error .noDatabase

/-- The settings of a section that is a mapping. -/
def checkSection (settings : List (Value × Value)) (name : String) : Except Fault Value := do
  let found ← (Value.map settings).demand name
  let _ ← found.itemsOf
  return found

/-- The sections that the scheduler uses can be read. -/
def checkScheduler (settings : List (Value × Value)) : Except Fault Unit := do
  for name in ["redis", "alerting", "queues", "scheduler"] do
    let _ ← checkSection settings name
  let _ ← (← checkSection settings "queues").demand "notifications"

/-- The sections that the workers use can be read. -/
def checkWorkers (settings : List (Value × Value)) : Except Fault Unit := do
  for name in ["redis", "notifications", "queues", "detection"] do
    let _ ← checkSection settings name
  let mail ← (← checkSection settings "notifications").getOf "smtp"
  if mail.truthy then
    let _ ← mail.itemsOf
  let queues ← checkSection settings "queues"
  let _ ← queues.demand "notifications"
  let _ ← queues.demand "detection"

/-- Start something that uses these sections. What keeps it from starting is not reported. -/
def start (settings : List (Value × Value)) (check : Except Fault Unit) : Outcome :=
  match database settings, check with
  | .ok _, .ok () => ⟨.started, []⟩
  | _, _ => ⟨.exit 1, []⟩

/-- What is printed about an import. -/
def report (result : ImportResult) : Outcome :=
  let warnings := result.warnings.map ("Warning: " ++ ·)
  match result.errors, result.rule with
  | [], some rule =>
    let record := result.record.getD ""
    let status := result.status.getD ""
    ⟨.exit 0, warnings ++
      ["Imported " ++ Text.quoted rule.title ++ " as " ++ record ++ " (" ++ status ++ ")"] ++
      ((Sigma.given result.alertRule).map ("Alert rule created: " ++ ·)).toList⟩
  | errors, _ => ⟨.exit 1, warnings ++ errors.map ("Error: " ++ ·)⟩

/-- Import a rule file. -/
def importFile (w : Workspace) (settings : List (Value × Value)) (options : ImportOptions) :
    Outcome × Workspace :=
  match database settings with
  | .error failure => (⟨.broken failure, []⟩, w)
  | .ok location =>
    let w := w.keep location (w.store location)
    match readFile w options.file with
    | .error failure => (⟨.broken failure, []⟩, w)
    | .ok text =>
      let request : ImportRequest :=
        ⟨Text.unifyBreaks text, some options.organization, options.project, options.recipients,
          options.webhook, options.wantsAlertRule⟩
      let (result, store, ids) := (w.store location).importRule w.ids none request
      let w := { w with ids }.keep location store
      match result with
      | .error error => (⟨.broken (.store error), []⟩, w)
      | .ok result => (report result, w)

/-- Carry out a command under settings that were read. -/
def carryOut (w : Workspace) (settings : List (Value × Value)) (command : Task) :
    Outcome × Workspace :=
  match checkLogging settings with
  | .error cause => (⟨.broken (.fault cause), []⟩, w)
  | .ok () =>
    match command with
    | .scheduler => (start settings (checkScheduler settings), w)
    | .worker => (start settings (checkWorkers settings), w)
    | .importRule options => importFile w settings options

/-- Carry out a command line. -/
def run (w : Workspace) (environment : Settings.Environment) (line : List String) :
    Outcome × Workspace :=
  match Arguments.read (environment.lookup "CONFIG_PATH") line with
  | .error stop => (⟨.exit stop.exitCode, []⟩, w)
  | .ok arguments =>
    match settings w environment arguments.config with
    | .error failure => (⟨.broken failure, []⟩, w)
    | .ok (.error message) => (⟨.exit 1, ["Error: " ++ message]⟩, w)
    | .ok (.ok settings) => carryOut w settings arguments.command

end LogAlert.Command
