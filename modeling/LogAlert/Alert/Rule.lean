/-
# LogAlert.Alert.Rule -- threshold alert rules

An alert rule counts the logs of an organization, or of one of its projects, that have one of the
rule's levels and come from its service. It fires when the count reaches the threshold within the
rule's window of time.
-/
import LogAlert.Value.Basic

set_option autoImplicit false

namespace LogAlert.Alert

/-- What an alert rule says, whoever it belongs to. -/
structure Draft where
  name : String
  levels : List String
  threshold : Int
  /-- The window in minutes. -/
  window : Int
  /-- The service whose logs are counted; all services if there is none. -/
  service : Option String
  enabled : Bool
  recipients : List String
  webhook : Option String
  metadata : List (Value × Value)
deriving BEq, Inhabited, Repr

/-- An alert rule of an organization, or of one of its projects. -/
structure Rule extends Draft where
  id : String
  organization : String
  project : Option String
deriving BEq, Inhabited, Repr

/-- Somebody is told when the rule fires. -/
def Draft.hasTargets (draft : Draft) : Bool :=
  !draft.recipients.isEmpty || (draft.webhook.filter (· ≠ "")).isSome

end LogAlert.Alert
