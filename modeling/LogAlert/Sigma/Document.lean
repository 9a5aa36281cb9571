/-
# LogAlert.Sigma.Document -- rules from YAML texts

`parse` reads, validates and normalises the text of one rule. The result is a rule with warnings, or
the list of everything that is wrong with the text. Some scalars of a text cannot be read at all,
such as a date that is not in the calendar; these are faults.
-/
import LogAlert.Sigma.Normalization
import LogAlert.Sigma.Lint
import LogAlert.Yaml.Load

set_option autoImplicit false

namespace LogAlert.Sigma

/-- The outcome of reading a rule. -/
inductive Parsed where
  | rule (rule : Rule) (warnings : List String)
  | refused (errors : List String)

namespace Parsed

/-- The rule, if there is one. -/
def rule? : Parsed → Option Rule
  | .rule r _ => some r
  | .refused _ => none

/-- What is wrong with the text. -/
def errors : Parsed → List String
  | .rule _ _ => []
  | .refused errors => errors

/-- What keeps the rule from matching. -/
def warnings : Parsed → List String
  | .rule _ warnings => warnings
  | .refused _ => []

end Parsed

/-- Why a text is no document. -/
inductive DocumentError where
  /-- The text is not read as YAML. -/
  | unreadable
  /-- The document is no mapping. -/
  | noMapping
deriving DecidableEq, Repr

/-- The message for a text that is no document. -/
def DocumentError.message : DocumentError → String
  | .unreadable => "YAML parsing failed: malformed document"
  | .noMapping => "YAML parsing failed: Invalid YAML: expected object"

/-- The mapping that a text holds. -/
def document (text : String) : Except Fault (Except DocumentError Value) :=
  match Yaml.load text with
  | .ok (.map entries) => .ok (.ok (.map entries))
  | .ok _ => .ok (.error .noMapping)
  | .error .malformed => .ok (.error .unreadable)
  | .error (.scalar fault) => .error fault

/-- The rule of a document, or its problems, and the supply of identifiers after that. -/
def ofDocument (ids : Ids) (raw : Value) : Except Fault Parsed × Ids :=
  match problems raw with
  | .error fault => (.error fault, ids)
  | .ok (problem :: more) => (.ok (.refused (problem :: more)), ids)
  | .ok [] =>
    match Rule.ofValue ids raw with
    | (.error fault, ids) => (.error fault, ids)
    | (.ok rule, ids) =>
      match warnings rule with
      | .error fault => (.error fault, ids)
      | .ok warnings => (.ok (.rule rule warnings), ids)

/-- Read the text of one rule. -/
def parse (ids : Ids) (text : String) : Except Fault Parsed × Ids :=
  match document text with
  | .error fault => (.error fault, ids)
  | .ok (.error e) => (.ok (.refused [e.message]), ids)
  | .ok (.ok raw) => ofDocument ids raw

/-- The rule of a text as it is in the other reading, in which surrogates are shown. -/
def shownRule (ids : Ids) (rule : Rule) (text : String) : Rule :=
  match Yaml.read .shown text with
  | .ok raw => (Rule.ofValue ids raw).1.toOption.getD rule
  | .error _ => rule

/-- The message for a text that holds no rule. -/
def refusal (errors : List String) : String :=
  if errors.isEmpty then "Invalid rule document" else Value.joined "; " errors

end LogAlert.Sigma
