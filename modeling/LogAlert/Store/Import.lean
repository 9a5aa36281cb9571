/-
# LogAlert.Store.Import -- importing detection rules

A rule text is imported by storing its rule as an active detection rule, and on request an alert
rule converted from it. A text without a valid rule is rejected with its problems; nothing is stored
then. A rule that lint finds fault with is stored as partial.

A rule can have texts with surrogates, which cannot be stored in columns of texts. These are found
by comparing the rule with the other reading of its text (`Yaml.Surrogates`). JSON has escapes for
surrogates, so that columns of JSON texts can be stored in any case.
-/
import LogAlert.Alert.Conversion
import LogAlert.Attack.Tags
import LogAlert.Sigma.Document
import LogAlert.Store.Alerts
import LogAlert.Store.Rules

set_option autoImplicit false

namespace LogAlert

/-- What is imported, and for whom. -/
structure ImportRequest where
  text : String
  organization : Option String
  project : Option String
  recipients : List String
  webhook : Option String
  /-- An alert rule is wanted, too. -/
  wantsAlertRule : Bool
deriving Repr, Inhabited

/-- The outcome of an import. -/
structure ImportResult where
  rule : Option Sigma.Rule
  /-- The row of the detection rule. -/
  record : Option String
  /-- The row of the alert rule. -/
  alertRule : Option String
  status : Option String
  warnings : List String
  errors : List String
deriving Repr, Inhabited

namespace ImportResult

/-- The rule is stored. -/
def isOk (result : ImportResult) : Bool := result.record.isSome && result.errors.isEmpty

/-- Nothing is stored, because of these problems. -/
def rejected (rule : Option Sigma.Rule) (warnings errors : List String) : ImportResult :=
  ⟨rule, none, none, none, warnings, errors⟩

end ImportResult

namespace Store

/-- How the conversion of a rule with these lint warnings ended. -/
def importStatus (warnings : List String) : String :=
  if warnings.isEmpty then "success" else "partial"

/-- The texts of a rule that are stored as such with its alert rule. -/
def alertTexts (rule : Sigma.Rule) : List (Option String) :=
  [some rule.title, Alert.serviceOf rule.logsource]

/-- The texts of a rule that are stored as such. -/
def ruleTexts (rule : Sigma.Rule) : List (Option String) :=
  [some rule.id, some rule.title, rule.description, rule.author, rule.date]

/-- Why one of the texts cannot be stored, if there is such a text. -/
def unencodable? (texts shown : List (Option String)) : Option Fault :=
  (texts.zip shown).findSome? fun (text, shown) =>
    Yaml.Surrogates.unencodable? (text.getD "") (shown.getD "")

/-- A change whose texts must be encoded. This fails before the constraints on its row are looked at,
but after its values are made. -/
def encoding {α : Type} (unencodable : Option Fault) (change : Except StoreError α) :
    Except StoreError α :=
  match unencodable, change with
  | some fault, .ok _ => .error (.fault fault)
  | some fault, .error .integrity => .error (.fault fault)
  | _, change => change

/-- Store a rule, which belongs to an alert rule if one is given. -/
def storeRule (store : Store) (ids : Ids) (request : ImportRequest) (rule shown : Sigma.Rule)
    (status : String) (notes : String) (alertRule : Option String) :
    Except StoreError (String × Store × Ids) :=
  encoding (unencodable? (ruleTexts rule) (ruleTexts shown)) (store.saveRule ids rule
    ⟨request.organization, request.project, request.recipients, request.webhook, some status,
      some notes, alertRule, Attack.tacticsNamed rule.tags, Attack.techniquesNamed rule.tags⟩)

/-- Store the alert rule of a request for a rule, if one is wanted. -/
def storeAlertRule (store : Store) (ids : Ids) (request : ImportRequest) (rule shown : Sigma.Rule)
    (draft : Alert.Draft) : Except StoreError (Option String × Store × Ids) :=
  if request.wantsAlertRule then do
    let new := { NewAlertRule.ofDraft draft "" request.project with
      organization := request.organization }
    let (alertRule, store, ids) ←
      encoding (unencodable? (alertTexts rule) (alertTexts shown)) (store.createAlertRule ids new)
    return (some alertRule.id, store, ids)
  else return (none, store, ids)

/-- Store a rule, whose surrogates are shown in another reading, and its alert rule, if one is
wanted. An alert rule stays even if the rule itself cannot be stored after it. -/
def storeConverted (store : Store) (ids : Ids) (request : ImportRequest) (rule shown : Sigma.Rule)
    (lint : List String) (conversion : Alert.Conversion) :
    Except StoreError ImportResult × Store × Ids :=
  let warnings := lint ++ conversion.warnings
  let status := importStatus lint
  let first : Except StoreError (Option (Option String × Store × Ids)) :=
    match conversion.draft? with
    | none => .ok (if request.wantsAlertRule then none else some (none, store, ids))
    | some draft => (store.storeAlertRule ids request rule shown draft).map some
  match first with
  | .error error => (.error error, store, ids)
  | .ok none => (.ok (.rejected (some rule) warnings conversion.errors), store, ids)
  | .ok (some (alertRule, store, ids)) =>
    match store.storeRule ids request rule shown status conversion.notes alertRule with
    | .error error => (.error error, store, ids)
    | .ok (record, store, ids) =>
      (.ok ⟨some rule, some record, alertRule, some status, warnings, []⟩, store, ids)

/-- Import a rule text. The conversion can be impossible, for the given reason. -/
def importRule (store : Store) (ids : Ids) (noService : Option String) (request : ImportRequest) :
    Except StoreError ImportResult × Store × Ids :=
  match Sigma.parse ids request.text with
  | (.error fault, names) => (.error (.fault fault), store, names)
  | (.ok (.refused errors), names) => (.ok (.rejected none [] errors), store, names)
  | (.ok (.rule rule lint), names) =>
    storeConverted store names request rule (Sigma.shownRule ids rule request.text) lint
      (Alert.convert noService rule request.recipients request.webhook)

end Store

end LogAlert
