/-
# LogAlert.Log.Fields -- the fields that rules see

Rules are matched against the fields of a log entry by name (`LogEntry.fields`). Metadata is nested;
its leaves are named by their path, with points between the keys (`leaves`). An entry that was read
has no keys that cannot be shown (`LogEntry.nameable`). A leaf at a path `p` is the field
`metadata.p`, and also the field `p` if nothing else has that name. The fields of the entry itself
come before those of the same name among its other keys.
-/
import LogAlert.Log.Entry

set_option autoImplicit false

namespace LogAlert

/-- Values by name. A name occurs once. -/
abbrev Fields := List (String × Value)

namespace Fields

/-- Write a field: in place if the name is present, else behind all others. -/
def put (fields : Fields) (name : String) (value : Value) : Fields :=
  match fields with
  | [] => [(name, value)]
  | (n, v) :: rest => if n = name then (n, value) :: rest else (n, v) :: put rest name value

/-- Write a field unless the name is present. -/
def putNew (fields : Fields) (name : String) (value : Value) : Fields :=
  if (fields.lookup name).isSome then fields else fields.put name value

/-- Write several fields, one after the other. -/
def putAll (fields : Fields) (others : List (String × Value)) : Fields :=
  others.foldl (fun fields (n, v) => fields.put n v) fields

end Fields

namespace LogEntry

/-- A path followed by a key. The empty path adds nothing. -/
def pathTo (path key : String) : String := if path = "" then key else path ++ "." ++ key

mutual

/-- The leaf at a path, or all leaves below it. -/
def leavesAt (path : String) : Value → List (String × Value)
  | .map entries => leavesBelow path entries
  | v => [(path, v.dated)]

/-- The leaves of the entries of a mapping, in their order. -/
def leavesBelow (path : String) : List (Value × Value) → List (String × Value)
  | [] => []
  | (k, v) :: rest => leavesAt (pathTo path k.shown) v ++ leavesBelow path rest

end

/-- The leaves of the metadata with their paths. -/
def leaves (entry : LogEntry) : List (String × Value) := leavesBelow "" entry.metadata

/-- The fields of the entry itself. -/
def core (entry : LogEntry) : List (String × Value) :=
  [("time", .text entry.time.text), ("service", .text entry.service),
    ("level", .text entry.level), ("message", .text entry.message)] ++ entry.identifiers

/-- The value is neither a list nor a mapping. -/
def isScalarField : Value → Bool
  | .list _ => false
  | .map _ => false
  | _ => true

/-- The fields under other keys that hold a single value. -/
def extraFields (entry : LogEntry) : List (String × Value) :=
  (entry.extra.filter fun (_, v) => isScalarField v).map fun (k, v) => (k, v.dated)

/-- The fields that rules are matched against. -/
def fields (entry : LogEntry) : Fields :=
  let own := Fields.putAll (Fields.putAll [] entry.extraFields) entry.core
  let nested := Fields.putAll [] entry.leaves
  let named := Fields.putAll own (nested.map fun (p, v) => ("metadata." ++ p, v))
  nested.foldl (fun fields (p, v) => fields.putNew p v) named

end LogEntry

end LogAlert
