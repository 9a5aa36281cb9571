/-
# LogAlert.Sigma.Rule -- detection rules

A detection rule names the logs that it applies to (`LogSource`), selections of log fields, and a
condition on the selections. A selection is a list of keywords, searched in every text field, or a
list of constraints on single fields. `Rule.toValue` is the normalised document of a rule, in the
order in which rules are usually written.
-/
import LogAlert.Value.Basic

set_option autoImplicit false

namespace LogAlert.Sigma

/-- The severities of a rule. -/
def levels : List String := ["informational", "low", "medium", "high", "critical"]

/-- The stages of a rule's life. -/
def statuses : List String := ["experimental", "test", "stable", "deprecated", "unsupported"]

/-- The logs that a rule applies to. An absent or empty text does not restrict them. -/
structure LogSource where
  product : Option String
  service : Option String
  category : Option String
  definition : Option String
deriving DecidableEq, Repr, Inhabited

/-- The text, unless it is absent or empty. -/
def given (text : Option String) : Option String := text.filter (· ≠ "")

namespace LogSource

/-- Neither product, service nor category is given. -/
def isEmpty (source : LogSource) : Bool :=
  (given source.product).isNone && (given source.service).isNone && (given source.category).isNone

/-- An entry for a text that is present. -/
def entry (key : String) : Option String → List (Value × Value)
  | some s => [(.text key, .text s)]
  | none => []

/-- The texts that are present, by name. -/
def toValue (source : LogSource) : Value :=
  .map (entry "product" source.product ++ entry "service" source.service ++
    entry "category" source.category ++ entry "definition" source.definition)

end LogSource

/-- A constraint on one field: it has one of the values, in the sense of the modifier. -/
structure Constraint where
  field : String
  values : List Value
  modifier : Option String
  isList : Bool
deriving BEq, Inhabited, Repr

namespace Constraint

/-- The field with its modifier, as rules write it. -/
def key (c : Constraint) : String :=
  match given c.modifier with
  | some modifier => c.field ++ "|" ++ modifier
  | none => c.field

/-- The values as rules write them: a list, or a single value. -/
def written (c : Constraint) : Value :=
  if c.isList then .list c.values else c.values.head?.getD .null

end Constraint

/-- One block of a detection. -/
inductive Selection where
  /-- One of the words occurs in a text field. -/
  | keywords (words : List String)
  /-- All constraints hold. -/
  | fields (constraints : List Constraint)
  /-- A value of another shape, which cannot be matched. -/
  | other (value : Value)
deriving BEq, Inhabited, Repr

/-- The selection as rules write it. -/
def Selection.toValue : Selection → Value
  | .keywords words => Value.texts words
  | .fields constraints =>
    .map (constraints.foldl (fun entries c => Value.insertIn entries (.text c.key) c.written) [])
  | .other value => value

/-- Selections by name, and a condition on them. -/
structure Detection where
  condition : String
  selections : List (String × Selection)
  timeframe : Option String
deriving BEq, Inhabited, Repr

namespace Detection

/-- The names of the selections. -/
def names (d : Detection) : List String := d.selections.map (·.1)

/-- The detection as rules write it. -/
def toValue (d : Detection) : Value :=
  let selections := d.selections.map fun (name, selection) => (Value.text name, selection.toValue)
  let entries := match d.timeframe with
    | some t => Value.insertIn selections (.text "timeframe") (.text t)
    | none => selections
  .map (Value.insertIn entries (.text "condition") (.text d.condition))

end Detection

/-- A detection rule. Level and status of a valid rule are texts; a rule that was not validated may
hold any value there. -/
structure Rule where
  title : String
  id : String
  logsource : LogSource
  detection : Detection
  level : Value
  status : Value
  tags : List String
  author : Option String
  description : Option String
  date : Option String
  references : List String
  falsepositives : List String
deriving BEq, Inhabited, Repr

namespace Rule

/-- An entry for a list that is not empty. -/
def listEntry (key : String) (items : List String) : List (Value × Value) :=
  if items.isEmpty then [] else [(.text key, Value.texts items)]

/-- The document of a rule, in the order in which rules are usually written. -/
def toValue (r : Rule) : Value :=
  .map ([(.text "title", .text r.title), (.text "id", .text r.id), (.text "status", r.status)] ++
    LogSource.entry "description" r.description ++ LogSource.entry "author" r.author ++
    LogSource.entry "date" r.date ++ listEntry "references" r.references ++
    listEntry "tags" r.tags ++
    [(.text "logsource", r.logsource.toValue), (.text "detection", r.detection.toValue)] ++
    listEntry "falsepositives" r.falsepositives ++ [(.text "level", r.level)])

end Rule

end LogAlert.Sigma
