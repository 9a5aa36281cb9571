/-
# LogAlert.Sigma.Matching -- selections against the fields of a log

A log is matched as a `Record`: its fields by name. A constraint holds if the field is present and
one of the candidate values matches it; a field that holds a list matches if one of its items does.
Null never matches. Values are compared as texts (`Value.coerce`), by wildcards, or with the
modifier `contains` by occurrence; no other modifier is supported, and a constraint that has one
never holds.
-/
import LogAlert.Sigma.Rule
import LogAlert.Condition.Evaluation
import LogAlert.Text.Search
import LogAlert.Fault

set_option autoImplicit false

namespace LogAlert.Sigma

/-- The fields of a log by name. -/
abbrev Record := List (String × Value)

/-- The modifiers that constraints may have. -/
def supportedModifiers : List String := ["contains"]

/-- Some item passes the test; the items behind it are not tested. -/
def anyOf {ε α : Type} (test : α → Except ε Bool) : List α → Except ε Bool
  | [] => .ok false
  | x :: rest => do
    let b ← test x
    if b then return true else anyOf test rest

/-- Every item passes the test; the items behind one that fails are not tested. -/
def allOf {ε α : Type} (test : α → Except ε Bool) : List α → Except ε Bool
  | [] => .ok true
  | x :: rest => do
    let b ← test x
    if b then allOf test rest else return false

/-- The first text occurs in the second. -/
def occurs (caseSensitive : Bool) (needle text : String) : Bool :=
  if caseSensitive then Text.contains needle text
  else Text.contains (Text.lower needle) (Text.lower text)

/-- A single value of a log matches a candidate value. -/
def matchesScalar (caseSensitive : Bool) (modifier : Option String) (candidate value : Value) :
    Except Fault Bool := do
  let text ← value.coerce
  let pattern ← candidate.coerce
  match given modifier with
  | none => return Pattern.matchesValue caseSensitive pattern text
  | some modifier => return modifier = "contains" && occurs caseSensitive pattern text

mutual

/-- A value of a log matches a candidate that is not null. -/
def matchesCandidate (caseSensitive : Bool) (modifier : Option String) (candidate : Value) :
    Value → Except Fault Bool
  | .null => .ok false
  | .list items => matchesItem caseSensitive modifier candidate items
  | .pair a b => do
    let first ← matchesCandidate caseSensitive modifier candidate a
    if first then return true else matchesCandidate caseSensitive modifier candidate b
  | .bool b => matchesScalar caseSensitive modifier candidate (.bool b)
  | .int n => matchesScalar caseSensitive modifier candidate (.int n)
  | .float x => matchesScalar caseSensitive modifier candidate (.float x)
  | .text s => matchesScalar caseSensitive modifier candidate (.text s)
  | .bytes octets => matchesScalar caseSensitive modifier candidate (.bytes octets)
  | .date d => matchesScalar caseSensitive modifier candidate (.date d)
  | .time t => matchesScalar caseSensitive modifier candidate (.time t)
  | .set items => matchesScalar caseSensitive modifier candidate (.set items)
  | .map entries => matchesScalar caseSensitive modifier candidate (.map entries)

/-- One of the items matches the candidate. -/
def matchesItem (caseSensitive : Bool) (modifier : Option String) (candidate : Value) :
    List Value → Except Fault Bool
  | [] => .ok false
  | x :: rest => do
    let b ← matchesCandidate caseSensitive modifier candidate x
    if b then return true else matchesItem caseSensitive modifier candidate rest

end

/-- A value of a log matches a candidate. -/
def matchesValue (caseSensitive : Bool) (modifier : Option String) (value candidate : Value) :
    Except Fault Bool :=
  if candidate.isNull then .ok false else matchesCandidate caseSensitive modifier candidate value

namespace Constraint

/-- The field is present and matches one of the values. -/
def holds (caseSensitive : Bool) (record : Record) (c : Constraint) : Except Fault Bool :=
  match record.lookup c.field with
  | none => .ok false
  | some value => anyOf (matchesValue caseSensitive c.modifier value) c.values

end Constraint

/-- The texts among the fields of a record. -/
def textFields (record : Record) : List String := record.filterMap (·.2.text?)

/-- One of the words, the empty one apart, occurs in a text field. -/
def matchesKeywords (caseSensitive : Bool) (record : Record) (words : List String) : Bool :=
  words.any fun word => word ≠ "" && (textFields record).any (occurs caseSensitive word)

/-- The selection matches the record. A field map without constraints matches nothing. -/
def Selection.matchesRecord (caseSensitive : Bool) (record : Record) :
    Selection → Except Fault Bool
  | .keywords words => .ok (matchesKeywords caseSensitive record words)
  | .fields [] => .ok false
  | .fields constraints => allOf (Constraint.holds caseSensitive record) constraints
  | .other value => .error (.unsupportedSelection value.kindName)

namespace Detection

/-- Whether the selection of this name matches the record. -/
def question (d : Detection) (caseSensitive : Bool) (record : Record) (name : String) :
    Except Fault Bool :=
  match d.selections.lookup name with
  | some selection => selection.matchesRecord caseSensitive record
  | none => .error (.missingKey name)

/-- The condition holds of the record. -/
def holds (d : Detection) (caseSensitive : Bool) (tree : Condition.Tree) (record : Record) :
    Except Fault Bool := do
  let (b, _) ← tree.evaluate d.names (d.question caseSensitive record) []
  return b

end Detection

end LogAlert.Sigma
