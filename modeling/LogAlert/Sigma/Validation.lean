/-
# LogAlert.Sigma.Validation -- whether a document is a rule

`problems` lists everything that keeps a document from being a rule. It looks at the shape of the
document only: a condition that cannot be read, or that mentions selections that do not exist, is no
problem here.
-/
import LogAlert.Sigma.Rule
import LogAlert.Condition.Evaluation
import LogAlert.Fault

set_option autoImplicit false

namespace LogAlert.Sigma

/-- Null, texts, numbers, truth values, dates and times. -/
def isScalar : Value → Bool
  | .null | .text _ | .int _ | .float _ | .bool _ | .date _ | .time _ => true
  | _ => false

/-- The key is one of those of a detection that are not selections. -/
def isReserved (key : Value) : Bool :=
  match key with
  | .text s => s ∈ Condition.reservedNames
  | _ => false

/-- Texts with commas between them. -/
def listed (items : List String) : String := Value.joined ", " items

/-- The problems of one field of a field map. -/
def fieldProblems (name : String) (key value : Value) : Except Fault (List String) :=
  let start := do return "Unsupported value for \"" ++ name ++ "." ++ (← key.display) ++ "\": "
  match value with
  | .list items =>
    if items.all isScalar then .ok []
    else do return [(← start) ++ "lists may only contain scalars"]
  | v =>
    if isScalar v then .ok []
    else do return [(← start) ++ "expected a scalar or a list of scalars"]

/-- The problems of one selection. -/
def selectionProblems (name : String) (body : Value) : Except Fault (List String) :=
  match body with
  | .list items =>
    .ok (if items.all isScalar then []
      else ["Unsupported selection shape in \"" ++ name ++
        "\": keyword lists may only contain scalars"])
  | .map entries => do
    return (← entries.mapM fun (key, value) => fieldProblems name key value).flatten
  | v => .ok (if isScalar v then [] else ["Unsupported selection shape in \"" ++ name ++ "\""])

/-- The text is not blank. -/
def isFilled (s : String) : Bool := !Text.isBlankText s

/-- There is a condition: a text that is not blank, a list of such, or another value that counts as
true. -/
def hasCondition (condition : Value) : Bool :=
  match condition with
  | .list items => (items.filterMap Value.text?).any isFilled
  | .text s => isFilled s
  | v => v.truthy

/-- The problems of a detection. -/
def detectionProblems (entries : List (Value × Value)) : Except Fault (List String) := do
  let selections := entries.filter fun entry => !isReserved entry.1
  let problems ← selections.mapM fun (name, body) => do selectionProblems (← name.display) body
  let missing :=
    if hasCondition (Value.get entries "condition") then []
    else ["Missing \"detection.condition\" field"]
  return missing ++ problems.flatten

/-- The problem of a value that must be one of a list of texts, unless it counts as false. -/
def choiceProblems (field : String) (choices : List String) (value : Value) :
    Except Fault (List String) :=
  if value.truthy && !(choices.any fun choice => value.same (.text choice)) then do
    return ["Invalid \"" ++ field ++ "\": " ++ (← value.display) ++ ". Must be one of: " ++
      listed choices]
  else .ok []

/-- Everything that keeps a document from being a rule. -/
def problems (raw : Value) : Except Fault (List String) := do
  let title ← raw.getOf "title"
  let logsource ← raw.getOf "logsource"
  let detection ← raw.getOf "detection"
  let level ← raw.getOf "level"
  let status ← raw.getOf "status"
  let invalid (field : String) := "Missing or invalid \"" ++ field ++ "\" field"
  let ofTitle := if title.text?.any isFilled then [] else [invalid "title"]
  let ofSource := if logsource.entries?.isSome then [] else [invalid "logsource"]
  let ofDetection ←
    match detection with
    | .map entries => detectionProblems entries
    | _ => .ok [invalid "detection"]
  let ofLevel ← choiceProblems "level" levels level
  let ofStatus ← choiceProblems "status" statuses status
  return ofTitle ++ ofSource ++ ofDetection ++ ofLevel ++ ofStatus

end LogAlert.Sigma
