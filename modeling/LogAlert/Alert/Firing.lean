/-
# LogAlert.Alert.Firing -- firings of alert rules

A firing says that the logs counted for an alert rule reached its threshold. There is one row in the
history for each firing.
-/
import LogAlert.Alert.Rule

set_option autoImplicit false

namespace LogAlert.Alert

/-- A threshold was reached. -/
structure Firing where
  /-- The row in the history. -/
  history : String
  rule : Rule
  /-- How many logs were counted. -/
  count : Nat
  time : Time.Instant
deriving BEq, Repr, Inhabited

end LogAlert.Alert
