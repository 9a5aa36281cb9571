/-
# LogAlert.Store.Rules -- stored detection rules

A detection rule is stored in columns; log source and detection are JSON texts, so that they come
back as the values that their texts stand for (`column`). The rule is built from its row again when
it is needed (`DetectionRow.rule?`); a row that has no valid rule is left out. Only rules whose
conversion succeeded, at least in part, are active.
-/
import LogAlert.Store.Basic
import LogAlert.Sigma.Normalization
import LogAlert.Engine.Cache
import LogAlert.Json.Read

set_option autoImplicit false

namespace LogAlert

/-- The document that a row holds. -/
def DetectionRow.document (row : DetectionRow) : Value :=
  .map [(.text "title", .text row.title),
    (.text "id", .text (if row.sigmaId = "" then row.id else row.sigmaId)),
    (.text "logsource", row.logsource.orElse (.map [])), (.text "detection", row.detection),
    (.text "level", .ofText? row.level), (.text "status", .ofText? row.status),
    (.text "tags", Value.texts row.tags), (.text "references", Value.texts row.references),
    (.text "falsepositives", Value.texts row.falsepositives),
    (.text "author", .ofText? row.author), (.text "description", .ofText? row.description),
    (.text "date", .ofText? row.date)]

/-- The rule of a row, if the row holds a valid one. -/
def DetectionRow.rule? (row : DetectionRow) : Except Fault (Option Sigma.Rule) := do
  let problems ← Sigma.problems row.document
  if problems.isEmpty then
    let draft ← Sigma.Draft.ofValue row.document
    return some (← draft.complete draft.id)
  else return none

namespace Store

/-- A value as it comes back from a column of JSON texts. -/
def column (v : Value) : Except StoreError Value :=
  match Json.print .refused v with
  | .error _ => .error .unwritable
  | .ok text =>
    match Json.read? (some Text.digitLimit) text with
    | some v => .ok v
    | none => .error .unwritable

/-- What a detection rule is stored with. -/
structure RuleOptions where
  organization : Option String
  project : Option String
  recipients : List String
  webhook : Option String
  conversionStatus : Option String
  conversionNotes : Option String
  alertRule : Option String
  tactics : List String
  techniques : List String

/-- Add a detection rule; the result is the identifier of its row. -/
def saveRule (store : Store) (ids : Ids) (rule : Sigma.Rule) (options : RuleOptions) :
    Except StoreError (String × Store × Ids) := do
  let logsource ← column rule.logsource.toValue
  let detection ← column rule.detection.toValue
  let level ← columnText rule.level
  let status ← columnText rule.status
  let organization ← required options.organization
  let (id, ids) := ids.fresh
  let row : DetectionRow :=
    ⟨id, organization, options.project, rule.id, rule.title, rule.description, rule.author,
      rule.date, level, status, logsource, detection, rule.tags, rule.references,
      rule.falsepositives, options.tactics, options.techniques, options.alertRule,
      options.conversionStatus, options.conversionNotes, options.recipients, options.webhook⟩
  return (id, { store with detectionRules := store.detectionRules ++ [row] }, ids)

/-- How the conversion of an active rule ended. -/
def activeStatuses : List String := ["success", "partial"]

/-- The rows of the active rules of a scope. -/
def activeRows (store : Store) (scope : Scope) : List DetectionRow :=
  store.detectionRules.filter fun row =>
    row.organization = scope.organization && row.conversionStatus.any (activeStatuses.contains ·) &&
      inScope scope.project row.project

/-- The active rules of a scope. -/
def activeRules (store : Store) (scope : Scope) : Except Fault (List Sigma.Rule) := do
  return ((← (store.activeRows scope).mapM DetectionRow.rule?)).reduceOption

/-- The first row of an organization that has the identifier, or whose rule has it. -/
def findRule? (store : Store) (organization id : String) : Option DetectionRow :=
  store.detectionRules.find? fun row =>
    row.organization = organization && (row.sigmaId = id || row.id = id)

end Store

end LogAlert
