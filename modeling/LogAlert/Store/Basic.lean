/-
# LogAlert.Store.Basic -- the rows that are kept

The store holds projects, logs, alert rules with the history of their firings, and detection rules.
Rows are kept in the order in which they were added. What is needed of a log is its time, its
service and level, and its project. A change either takes place as a whole or fails with a
`StoreError` and changes nothing.
-/
import LogAlert.Alert.Rule
import LogAlert.Sigma.Rule
import LogAlert.Time.Stamp
import LogAlert.Ids

set_option autoImplicit false

namespace LogAlert

/-- Why a change of the store fails. -/
inductive StoreError where
  /-- A value that a row must have is missing, or a name that must be new is taken. -/
  | integrity
  /-- A value of this kind cannot be stored in its column. -/
  | unsupported
  /-- A value has no form that can be written into its column. -/
  | unwritable
  /-- A value is faulty in itself. -/
  | fault (fault : Fault)
deriving DecidableEq, Repr

/-- A project of an organization. -/
structure Project where
  id : String
  organization : String
  name : String
deriving DecidableEq, Repr, Inhabited

/-- A stored log. -/
structure LogRow where
  id : String
  time : Time.Instant
  project : Option String
  service : String
  level : String
deriving DecidableEq, Repr, Inhabited

/-- A firing of an alert rule, and what became of its notification. -/
structure HistoryRow where
  id : String
  rule : String
  time : Time.Instant
  count : Int
  notified : Bool
  error : Option String
deriving DecidableEq, Repr, Inhabited

/-- A stored detection rule. -/
structure DetectionRow where
  id : String
  organization : String
  project : Option String
  /-- The identifier that the rule itself has. -/
  sigmaId : String
  title : String
  description : Option String
  author : Option String
  date : Option String
  level : Option String
  status : Option String
  logsource : Value
  detection : Value
  tags : List String
  references : List String
  falsepositives : List String
  tactics : List String
  techniques : List String
  alertRule : Option String
  conversionStatus : Option String
  conversionNotes : Option String
  recipients : List String
  webhook : Option String
deriving BEq, Repr, Inhabited

namespace DetectionRow

/-- Somebody is told when the rule matches. -/
def hasTargets (row : DetectionRow) : Bool :=
  !row.recipients.isEmpty || (row.webhook.filter (· ≠ "")).isSome

end DetectionRow

/-- All rows. -/
structure Store where
  projects : List Project
  logs : List LogRow
  alertRules : List Alert.Rule
  history : List HistoryRow
  detectionRules : List DetectionRow
deriving BEq, Repr, Inhabited

namespace Store

/-- A store without rows. -/
def empty : Store := ⟨[], [], [], [], []⟩

/-- A value that a row must have. -/
def required {α : Type} : Option α → Except StoreError α
  | some x => .ok x
  | none => .error .integrity

/-- A number that fits its column. -/
def number (n : Int) : Except StoreError Int :=
  if Time.fitsBits 64 n then .ok n else .error (.fault .beyondColumn)

/-- A value in a column of texts. -/
def columnText : Value → Except StoreError (Option String)
  | .null => .ok none
  | .text s => .ok (some s)
  | .bool b => .ok (some (if b then "1" else "0"))
  | .int n => do return some (Text.intText (← number n))
  | .float .nan => .ok none
  | .float x => .ok (some x.shown)
  | .date d => .ok (some d.text)
  | .time t => .ok (some t.spacedText)
  | _ => .error .unsupported

/-- The row belongs to the project, or to all projects of its organization. A missing or empty
project admits all rows. -/
def inScope (project row : Option String) : Bool :=
  match Sigma.given project with
  | none => true
  | some name => row = some name || row.isNone

/-! ## Projects -/

/-- Add a project; the result is its identifier. -/
def createProject (store : Store) (ids : Ids) (organization name : Option String) :
    Except StoreError (String × Store × Ids) := do
  let organization ← required organization
  let name ← required name
  let (id, ids) := ids.fresh
  return (id, { store with projects := store.projects ++ [⟨id, organization, name⟩] }, ids)

/-- The projects of an organization. -/
def projectIds (store : Store) (organization : String) : List String :=
  (store.projects.filter fun p => p.organization = organization).map (·.id)

end Store

end LogAlert
