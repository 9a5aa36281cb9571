/-
# LogAlert.Alert.Conversion -- alert rules for detection rules

`convert` derives a threshold alert rule from a detection rule: the level gives threshold and
window, the log source gives the service. Notes say what the rule contains. A rule with a level that
is no text, or with a detection that has no JSON text, is not converted.
-/
import LogAlert.Alert.Rule
import LogAlert.Sigma.Rule
import LogAlert.Json.Print
import LogAlert.Text.Search

set_option autoImplicit false

namespace LogAlert.Alert

/-- Categories whose logs come from services of many names. -/
def genericCategories : List String := ["webserver", "proxy", "firewall", "dns", "antivirus"]

/-- All levels of logs; rules on contents look at each of them. -/
def allLevels : List String := ["debug", "info", "warn", "error", "critical"]

/-- Threshold and window in minutes for the levels of detection rules. -/
def severities : List (String × Int × Int) :=
  [("critical", 1, 60), ("high", 3, 300), ("medium", 5, 600), ("low", 10, 1800),
    ("informational", 20, 3600)]

/-- Threshold and window for a level; a level without an entry counts as medium. -/
def severityOf (level : Value) : Except Fault (Int × Int) :=
  match level.unkeyable? with
  | some part => .error (.noKey part.kindName)
  | none => .ok ((level.text?.bind fun name => severities.lookup name).getD (5, 600))

/-- The service whose logs a rule is about. -/
def serviceOf (source : Sigma.LogSource) : Option String :=
  if source.category.any (· ∈ genericCategories) then none
  else (Sigma.given source.service).or source.product

mutual

/-- The texts in a value, from left to right. -/
def textsIn : Value → List String
  | .text s => [s]
  | .list items => textsInList items
  | .map entries => textsInEntries entries
  | _ => []

@[inherit_doc textsIn]
def textsInList : List Value → List String
  | [] => []
  | x :: rest => textsIn x ++ textsInList rest

@[inherit_doc textsIn]
def textsInEntries : List (Value × Value) → List String
  | [] => []
  | (_, v) :: rest => textsIn v ++ textsInEntries rest

end

/-- The texts without those that occurred before. -/
def distinctTexts (texts : List String) : List String :=
  texts.foldl (fun found text => if text ∈ found then found else found ++ [text]) []

/-- The texts that the selections of a detection look for. -/
def keywordsOf (detection : Sigma.Detection) : List String :=
  distinctTexts (detection.selections.flatMap fun (_, s) => textsIn s.toValue)

/-- Parts of conditions that combine selections. -/
def combiners : List String := ["and", "or", "not", "1 of", "all of"]

/-- The text contains one of the parts. -/
def containsAny (parts : List String) (text : String) : Bool :=
  parts.any fun part => Text.contains part text

/-- What the detection of a rule makes use of. -/
def features (detection : Sigma.Detection) : Except Fault (List String) := do
  let text ← Json.print .asText detection.toValue
  let feature (present : Bool) (name : String) : List String := if present then [name] else []
  return feature (containsAny combiners (Text.lower detection.condition))
      "complex conditions (AND/OR/NOT)" ++
    feature (containsAny ["|contains", "|endswith"] text)
      "field modifiers (contains, endswith, etc.)" ++
    feature (containsAny ["*", "?"] text) "wildcards (* and ?)" ++
    feature (containsAny ["|re"] text) "regex patterns"

/-- The warning for a rule that does not name a service. -/
def noServiceWarning : String :=
  "No service found in logsource. Alert will apply to all services."

/-- The outcome of a conversion. -/
inductive Conversion where
  | converted (draft : Draft) (warnings : List String) (notes : String)
  | failed (warnings : List String) (reason : String)

namespace Conversion

/-- The alert rule, if there is one. -/
def draft? : Conversion → Option Draft
  | .converted draft _ _ => some draft
  | .failed _ _ => none

/-- What should be known about the alert rule. -/
def warnings : Conversion → List String
  | .converted _ warnings _ => warnings
  | .failed warnings _ => warnings

/-- Why there is no alert rule. -/
def errors : Conversion → List String
  | .converted _ _ _ => []
  | .failed _ reason => ["Conversion failed: " ++ reason]

/-- What the conversion did. -/
def notes : Conversion → String
  | .converted _ _ notes => notes
  | .failed _ _ => "Conversion failed"

end Conversion

/-- The notes on a conversion. -/
def notesOn (rule : Sigma.Rule) (warnings features : List String) : String :=
  let lines :=
    ["Converted Sigma rule \"" ++ rule.title ++ "\" (level: " ++ rule.level.shown ++ ").",
      "The detection engine evaluates this rule against every incoming log " ++
        "and sends email and webhook notifications when it matches."] ++
    (if features.isEmpty then []
     else ["Advanced features detected: " ++ Value.joined ", " features]) ++
    (if warnings.isEmpty then []
     else ["Notes:\n" ++ Value.joined "\n" (warnings.map ("- " ++ ·))])
  Value.joined "\n" lines

/-- What the alert rule remembers of the detection rule. -/
def originOf (rule : Sigma.Rule) : List (Value × Value) :=
  [(.text "sigma_id", .text rule.id), (.text "sigma_title", .text rule.title),
    (.text "sigma_level", rule.level), (.text "sigma_status", rule.status),
    (.text "sigma_author", .ofText? rule.author),
    (.text "sigma_description", .ofText? rule.description),
    (.text "sigma_tags", Value.texts rule.tags),
    (.text "sigma_references", Value.texts rule.references),
    (.text "detection_keywords", Value.texts (keywordsOf rule.detection)),
    (.text "logsource", rule.logsource.toValue)]

/-- The alert rule for a detection rule whose logs come from the service. -/
def convertFor (service : Option String) (rule : Sigma.Rule) (recipients : List String)
    (webhook : Option String) : Conversion :=
  let warnings := if (Sigma.given service).isNone then [noServiceWarning] else []
  let parts : Except Fault ((Int × Int) × List String) := do
    let severity ← severityOf rule.level
    return (severity, ← features rule.detection)
  match parts with
  | .error fault => .failed warnings fault.message
  | .ok ((threshold, window), features) =>
    .converted
      ⟨rule.title, allLevels, threshold, window, service, true, recipients, webhook,
        originOf rule⟩
      warnings (notesOn rule warnings features)

/-- The alert rule for a detection rule. The service can be impossible to find, for the given
reason. -/
def convert (noService : Option String) (rule : Sigma.Rule) (recipients : List String)
    (webhook : Option String) : Conversion :=
  match noService with
  | some reason => .failed [] reason
  | none => convertFor (serviceOf rule.logsource) rule recipients webhook

end LogAlert.Alert
