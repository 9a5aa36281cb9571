/-
# LogAlert.Engine.Evaluation -- rules against log entries

Rules are compiled before they are evaluated: their condition is read, and the techniques and
tactics that their tags name are looked up (`compile`). A rule whose condition cannot be read is left
out. `evaluate` lists the rules that match an entry. A rule whose evaluation fails counts as an error
and does not match; the others are not affected.
-/
import LogAlert.Sigma.Applicability
import LogAlert.Sigma.Matching
import LogAlert.Attack.Tags
import LogAlert.Log.Fields

set_option autoImplicit false

namespace LogAlert.Engine

/-- A rule that can be evaluated. -/
structure CompiledRule where
  rule : Sigma.Rule
  condition : Condition.Tree
  techniques : List String
  tactics : List String
deriving Repr

/-- The compiled form of a rule, unless its condition is no condition. -/
def compile (rule : Sigma.Rule) : Except Fault (Option CompiledRule) :=
  match Condition.parse rule.detection.condition with
  | .ok tree =>
    .ok (some ⟨rule, tree, Attack.techniquesNamed rule.tags, Attack.tacticsNamed rule.tags⟩)
  | .error (.syntaxError _) => .ok none
  | .error (.overlongNumber digits) => .error (.overlongNumeral digits)

/-- The compiled forms of rules, in their order. -/
def compileAll (rules : List Sigma.Rule) : Except Fault (List CompiledRule) := do
  return (← rules.mapM compile).reduceOption

/-- The rule applies to the entry and its detection holds of the fields. -/
def CompiledRule.holds (rule : CompiledRule) (caseSensitive : Bool) (entry : LogEntry)
    (fields : Fields) : Except Fault Bool := do
  let covered ← rule.rule.logsource.covers entry
  if covered then rule.rule.detection.holds caseSensitive rule.condition fields else return false

/-- What became of a list of rules for one entry. -/
structure Outcome where
  /-- The rules that matched, in their order. -/
  matched : List CompiledRule
  /-- How many rules could not be evaluated. -/
  failures : Nat
deriving Repr

/-- A rule was evaluated and matched. -/
def isMatch : Except Fault Bool → Bool
  | .ok b => b
  | .error _ => false

/-- A rule could not be evaluated. -/
def isFailure : Except Fault Bool → Bool
  | .ok _ => false
  | .error _ => true

/-- Evaluate the rules for an entry. -/
def evaluate (caseSensitive : Bool) (rules : List CompiledRule) (entry : LogEntry) : Outcome :=
  let fields := entry.fields
  let results := rules.map fun rule => (rule, rule.holds caseSensitive entry fields)
  ⟨(results.filter fun (_, result) => isMatch result).map (·.1),
    results.countP fun (_, result) => isFailure result⟩

end LogAlert.Engine
