/-
# LogAlert.Store.Alerts -- alert rules and the history of their firings

Alert rules are listed in the order in which they were created. The history of a rule has one row
for each firing; the outcome of its notification is written into that row.
-/
import LogAlert.Store.Basic

set_option autoImplicit false

namespace LogAlert.Store

/-- What an alert rule is created from. Name, organization, threshold and window must be given. -/
structure NewAlertRule where
  organization : Option String
  project : Option String
  name : Option String
  levels : List String
  threshold : Option Int
  window : Option Int
  service : Option String
  enabled : Bool
  recipients : List String
  webhook : Option String
  metadata : List (Value × Value)

/-- An alert rule of this draft. -/
def NewAlertRule.ofDraft (draft : Alert.Draft) (organization : String) (project : Option String) :
    NewAlertRule :=
  ⟨some organization, project, some draft.name, draft.levels, some draft.threshold,
    some draft.window, draft.service, draft.enabled, draft.recipients, draft.webhook,
    draft.metadata⟩

/-- Add an alert rule. -/
def createAlertRule (store : Store) (ids : Ids) (new : NewAlertRule) :
    Except StoreError (Alert.Rule × Store × Ids) := do
  let organization ← required new.organization
  let name ← required new.name
  let threshold ← number (← required new.threshold)
  let window ← number (← required new.window)
  let (id, ids) := ids.fresh
  let rule : Alert.Rule :=
    ⟨⟨name, new.levels, threshold, window, new.service, new.enabled, new.recipients, new.webhook,
      new.metadata⟩, id, organization, new.project⟩
  return (rule, { store with alertRules := store.alertRules ++ [rule] }, ids)

/-- The enabled alert rules, of one organization and one scope if these are given. -/
def enabledAlertRules (store : Store) (organization project : Option String) : List Alert.Rule :=
  store.alertRules.filter fun rule =>
    rule.enabled && (Sigma.given organization).all (· = rule.organization) &&
      inScope project rule.project

/-- The alert rule with this identifier. -/
def alertRule? (store : Store) (id : String) : Option Alert.Rule :=
  store.alertRules.find? fun rule => rule.id = id

/-! ## History -/

/-- Add a firing of a rule; the result is the identifier of its row. -/
def insertHistory (store : Store) (ids : Ids) (rule : Option String) (count : Int)
    (time : Time.Instant) : Except StoreError (String × Store × Ids) := do
  let rule ← required rule
  let count ← number count
  let (id, ids) := ids.fresh
  return (id, { store with history := store.history ++ [⟨id, rule, time, count, false, none⟩] },
    ids)

/-- The firings of a rule. -/
def firingsOf (store : Store) (rule : String) : List HistoryRow :=
  store.history.filter fun row => row.rule = rule

/-- The later of two instants. -/
def later (a b : Time.Instant) : Time.Instant := if a ≤ b then b else a

/-- The time of the last firing of a rule. -/
def lastFiring (store : Store) (rule : String) : Option Time.Instant :=
  match (store.firingsOf rule).map (·.time) with
  | [] => none
  | time :: rest => some (rest.foldl later time)

/-- The order of a history: the newest first, and by identifier at equal times. -/
def newerFirst (a b : HistoryRow) : Bool :=
  decide (b.time < a.time) || (a.time == b.time && !decide (b.id < a.id))

/-- The firings of a rule, the newest first. -/
def historyOf (store : Store) (rule : String) : List HistoryRow :=
  (store.firingsOf rule).mergeSort newerFirst

/-- Write the outcome of a notification into the rows with an identifier. -/
def HistoryRow.withOutcome (row : HistoryRow) (error : Option String) : HistoryRow :=
  { row with notified := error.isNone, error }

/-- Write the outcome of a notification into the row of its firing. The result says whether there is
such a row. -/
def markNotified (store : Store) (history : String) (error : Option String) : Bool × Store :=
  if store.history.any fun row => row.id = history then
    (true, { store with
      history := store.history.map fun row =>
        if row.id = history then HistoryRow.withOutcome row error else row })
  else (false, store)

end LogAlert.Store
