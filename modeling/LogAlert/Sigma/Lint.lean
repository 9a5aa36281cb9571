/-
# LogAlert.Sigma.Lint -- what keeps a rule from matching

A valid rule may hold parts that can never match: modifiers that are not supported, a condition that
cannot be read, names and patterns without a selection. `warnings` lists them. A condition with a
number that is too long to be read is a fault instead.
-/
import LogAlert.Sigma.Matching

set_option autoImplicit false

namespace LogAlert.Sigma

/-- The warning for a modifier that is not supported. -/
def modifierWarning (name : String) (c : Constraint) : List String :=
  match given c.modifier with
  | some modifier =>
    if modifier ∈ supportedModifiers then []
    else ["Unsupported modifier \"" ++ modifier ++ "\" on \"" ++ name ++ "." ++ c.field ++
      "\"; the constraint never matches"]
  | none => []

/-- The warnings for the modifiers of a selection. -/
def selectionWarnings (name : String) : Selection → List String
  | .fields constraints => constraints.flatMap (modifierWarning name)
  | _ => []

/-- The warning for a part of a condition that stands for no selection. -/
def nodeWarnings (names : List String) : Condition.Tree → List String
  | .selection name =>
    if (Condition.resolvedName names name).isNone then
      ["Condition references unknown selection \"" ++ name ++ "\""]
    else []
  | .quantified pattern _ =>
    if (Condition.selectedNames pattern names).isEmpty then
      ["Pattern \"" ++ pattern ++ "\" in condition matches no selection"]
    else []
  | _ => []

/-- The warnings for a condition. -/
def conditionWarnings (d : Detection) : Except Fault (List String) :=
  match Condition.parse d.condition with
  | .ok tree => .ok (tree.nodes.flatMap (nodeWarnings d.names))
  | .error (.syntaxError e) =>
    .ok ["Invalid condition " ++ Text.quoted d.condition ++ ": " ++ e.message]
  | .error (.overlongNumber digits) => .error (.overlongNumeral digits)

/-- What keeps a rule from matching as it is written. -/
def warnings (rule : Rule) : Except Fault (List String) := do
  let ofSelections := rule.detection.selections.flatMap fun (name, s) => selectionWarnings name s
  let ofCondition ← conditionWarnings rule.detection
  return ofSelections ++ ofCondition

end LogAlert.Sigma
