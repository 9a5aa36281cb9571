/-
# LogAlert.Sigma.Normalization -- rules from documents

A document becomes a rule in two steps. `Draft.ofValue` reads the detection and the identifier; if
the document has no identifier, the rule is given one in between, and `Draft.complete` reads the
rest. Values take their final form here: dates become texts, keywords and descriptions become texts,
level and status get defaults, and the parts of a condition list are joined by `or`.
-/
import LogAlert.Sigma.Validation
import LogAlert.Text.Search
import LogAlert.Ids

set_option autoImplicit false

namespace LogAlert.Sigma

/-- The texts of a list, or of a single value; null and empty texts are left out. -/
def textList (value : Value) : Except Fault (List String) := do
  let items := match value with
    | .null => []
    | .list items => items
    | v => [v]
  let texts ← (items.filter (!·.isNull)).mapM Value.coerce
  return texts.filter (· ≠ "")

/-- A field name with its modifiers, which stand behind bars. The modifiers are in lower case and
without blanks around them. -/
def splitKey (key : String) : String × Option String :=
  match Text.split '|' key with
  | [] => ("", none)
  | field :: modifiers =>
    let named := (modifiers.map fun m => Text.lower (Text.trim m)).filter (· ≠ "")
    (Text.trim field, if named.isEmpty then none else some (Value.joined "|" named))

/-- The constraint of one entry of a field map. -/
def Constraint.ofEntry (key value : Value) : Except Fault Constraint := do
  let (field, modifier) := splitKey (← key.display)
  match value with
  | .list items => return ⟨field, items.map Value.dated, modifier, true⟩
  | v => return ⟨field, [v.dated], modifier, false⟩

/-- The selection that a value of a detection stands for. -/
def Selection.ofValue (body : Value) : Except Fault Selection :=
  match body with
  | .null => .ok (.fields [])
  | .list items => do
    let words ← (items.filter (!·.isNull)).mapM fun item => item.dated.coerce
    return .keywords words
  | .map entries => do
    return .fields (← entries.mapM fun (key, value) => Constraint.ofEntry key value)
  | v => do return .keywords [← v.dated.coerce]

/-- Write a selection under a name: in place if the name is present, else behind the others. -/
def putSelection (selections : List (String × Selection)) (name : String) (s : Selection) :
    List (String × Selection) :=
  match selections with
  | [] => [(name, s)]
  | (n, t) :: rest => if n = name then (n, s) :: rest else (n, t) :: putSelection rest name s

/-- The selections of a detection. -/
def selectionsOf (entries : List (Value × Value)) : Except Fault (List (String × Selection)) := do
  let pairs ← (entries.filter fun entry => !isReserved entry.1).mapM fun (name, body) => do
    return (← name.display, ← Selection.ofValue body)
  return pairs.foldl (fun done (name, s) => putSelection done name s) []

/-- The condition of a detection: a text, or the texts of a list joined by `or`. -/
def conditionOf (value : Value) : Except Fault String :=
  match value with
  | .list items =>
    let parts := ((items.filterMap Value.text?).filter isFilled).map Text.trim
    match parts with
    | [part] => .ok part
    | parts => .ok (Value.joined " or " (parts.map fun part => "(" ++ part ++ ")"))
  | v => do return Text.trim (← v.coerce)

/-- The text of a value, unless it is null. -/
def optionalText (value : Value) : Except Fault (Option String) :=
  if value.isNull then .ok none else do return some (← value.coerce)

/-- The text of an entry of a mapping, unless it is null. -/
def optionalAt (raw : Value) (key : String) : Except Fault (Option String) := do
  optionalText (← raw.getOf key)

/-- The logs that a mapping describes. -/
def LogSource.ofValue (raw : Value) : Except Fault LogSource := do
  return ⟨← optionalAt raw "product", ← optionalAt raw "service", ← optionalAt raw "category",
    ← optionalAt raw "definition"⟩

/-- A rule of which detection and identifier have been read. The identifier is empty if the document
has none. -/
structure Draft where
  raw : Value
  detection : Detection
  id : String

namespace Draft

/-- Read the detection and the identifier of a document. -/
def ofValue (raw : Value) : Except Fault Draft := do
  let detection ← raw.demand "detection"
  let entries ← detection.itemsOf
  let selections ← selectionsOf entries
  let condition ← conditionOf (Value.get entries "condition")
  let timeframe ← optionalText (Value.get entries "timeframe")
  let id := Text.trim (← (← raw.getOf "id").coerce)
  return ⟨raw, ⟨condition, selections, timeframe⟩, id⟩

/-- Read the rest of the document; the rule has the given identifier. -/
def complete (draft : Draft) (id : String) : Except Fault Rule := do
  let raw := draft.raw
  let title ← (← raw.demand "title").trimmed
  let logsource ← LogSource.ofValue ((← raw.getOf "logsource").orElse (.map []))
  let level := (← raw.getOf "level").orElse (.text "medium")
  let status := (← raw.getOf "status").orElse (.text "stable")
  let tags ← textList (← raw.getOf "tags")
  let author ← optionalAt raw "author"
  let description ← optionalAt raw "description"
  let date ← optionalText (← raw.getOf "date").dated
  let references ← textList (← raw.getOf "references")
  let falsepositives ← textList (← raw.getOf "falsepositives")
  return ⟨title, id, logsource, draft.detection, level, status, tags, author, description, date,
    references, falsepositives⟩

end Draft

/-- The rule of a document, with a new identifier if the document has none, and the supply after
that. An identifier may be used up although the document has a fault. -/
def Rule.ofValue (ids : Ids) (raw : Value) : Except Fault Rule × Ids :=
  match Draft.ofValue raw with
  | .error fault => (.error fault, ids)
  | .ok draft =>
    let (id, ids) := ids.orFresh draft.id
    (draft.complete id, ids)

end LogAlert.Sigma
