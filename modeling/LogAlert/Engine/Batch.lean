/-
# LogAlert.Engine.Batch -- batches of logs to be evaluated

Logs can be submitted for evaluation through a queue. A batch names the organization and the project
whose rules are meant, and holds the entries as they are sent.
-/
import LogAlert.Engine.Cache

set_option autoImplicit false

namespace LogAlert.Engine

/-- Logs of a scope. -/
structure Batch where
  organization : String
  project : Value
  logs : List Value
deriving BEq, Repr, Inhabited

namespace Batch

/-- Read a batch. -/
def ofValue (data : Value) : Except Fault Batch := do
  let organization ← (← data.demand "organization_id").display
  let logs ← ((← data.getOf "logs").orElse (.list [])).iterated
  return ⟨organization, ← data.getOf "project_id", logs⟩

/-- The mapping that a batch travels as. -/
def toValue (batch : Batch) : Value :=
  .map [(.text "organization_id", .text batch.organization), (.text "project_id", batch.project),
    (.text "logs", .list batch.logs)]

/-- The scope that a batch belongs to. -/
def scope (batch : Batch) : Except Fault Scope :=
  match batch.project with
  | .null => .ok ⟨batch.organization, none⟩
  | .text project => .ok ⟨batch.organization, some project⟩
  | v =>
    match v.unkeyable? with
    | some part => .error (.noKey part.kindName)
    | none => do
      let project ← v.display
      return ⟨batch.organization, some (if v.truthy then project else "")⟩

/-- The batch of these entries. -/
def ofEntries (scope : Scope) (entries : List LogEntry) : Batch :=
  ⟨scope.organization, .ofText? scope.project, entries.map LogEntry.toValue⟩

end Batch

end LogAlert.Engine
