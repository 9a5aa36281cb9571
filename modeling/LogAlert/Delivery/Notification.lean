/-
# LogAlert.Delivery.Notification -- what is to be delivered

A notification tells the people behind a rule that it fired or matched. Notifications travel through
a queue as mappings; `Notification.ofValue` reads what `Notification.toValue` writes, and fills in
what may be missing. The identifier of a notification is the key under which the ledger remembers
its delivery.
-/
import LogAlert.Alert.Firing
import LogAlert.Fault
import LogAlert.Ids

set_option autoImplicit false

namespace LogAlert

/-- News for the people behind a rule. -/
structure Notification where
  id : String
  /-- The row of the firing in the history, if there is one. -/
  history : Value
  ruleId : String
  ruleName : String
  organization : String
  project : Value
  logCount : Int
  threshold : Int
  /-- The window in minutes. -/
  window : Int
  recipients : List Value
  webhook : Value
deriving BEq, Repr, Inhabited

namespace Notification

/-- The identifier of the notification of a firing. -/
def idOfFiring (history : String) : String := "alert:" ++ history

/-- The notification of a firing. -/
def ofFiring (firing : Alert.Firing) : Notification :=
  ⟨idOfFiring firing.history, .text firing.history, firing.rule.id, firing.rule.name,
    firing.rule.organization, .ofText? firing.rule.project, firing.count, firing.rule.threshold,
    firing.rule.window, firing.rule.recipients.map .text, .ofText? firing.rule.webhook⟩

/-- The mapping that a notification travels as. -/
def toValue (n : Notification) : Value :=
  .map [(.text "job_id", .text n.id), (.text "history_id", n.history),
    (.text "rule_id", .text n.ruleId), (.text "rule_name", .text n.ruleName),
    (.text "organization_id", .text n.organization), (.text "project_id", n.project),
    (.text "log_count", .int n.logCount), (.text "threshold", .int n.threshold),
    (.text "time_window", .int n.window), (.text "email_recipients", .list n.recipients),
    (.text "webhook_url", n.webhook)]

/-- The count at a key; zero where there is none. -/
def countAt (entries : List (Value × Value)) (key : String) : Except Fault Int :=
  ((Value.at? entries key).getD (.int 0)).toInt

/-- The notification with this identifier, read from the entries of a mapping. -/
def ofEntries (id : Value) (entries : List (Value × Value)) : Except Fault Notification := do
  let data := Value.map entries
  let id ← id.display
  let ruleId ← (← data.demand "rule_id").display
  let ruleName ← (← data.demand "rule_name").display
  let organization ← ((Value.get entries "organization_id").orElse (.text "")).display
  let logCount ← countAt entries "log_count"
  let threshold ← countAt entries "threshold"
  let window ← countAt entries "time_window"
  let recipients ← ((Value.get entries "email_recipients").orElse (.list [])).iterated
  return ⟨id, Value.get entries "history_id", ruleId, ruleName, organization,
    Value.get entries "project_id", logCount, threshold, window, recipients,
    Value.get entries "webhook_url"⟩

/-- Read a notification. One without an identifier is given a new one first. -/
def ofValue (ids : Ids) (data : Value) : Except Fault Notification × Ids :=
  match data.getOf "job_id" with
  | .error fault => (.error fault, ids)
  | .ok id =>
    let (id, ids) :=
      if id.truthy then (id, ids)
      else
        let (name, ids) := ids.fresh
        (.text name, ids)
    (ofEntries id (data.entries?.getD []), ids)

end Notification

end LogAlert
