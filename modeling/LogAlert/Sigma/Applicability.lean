/-
# LogAlert.Sigma.Applicability -- which logs a rule applies to

A rule names the service, product and category of the logs it applies to, each as a pattern without
regard to case. A log whose value for one of them is `unknown` is not ruled out by it. Product and
category are taken from the metadata of a log or from its other keys, and the category may also be
the name of the service.
-/
import LogAlert.Sigma.Rule
import LogAlert.Log.Entry
import LogAlert.Pattern

set_option autoImplicit false

namespace LogAlert

/-- The name of a service, product or category that is not known. -/
def unknownName : String := "unknown"

/-- The value of an entry in its metadata, or else under its other keys. -/
def LogEntry.described (entry : LogEntry) (key : String) : Value :=
  (Value.get entry.metadata key).orElse ((entry.extra.lookup key).getD .null)

namespace Sigma

/-- A pattern admits a name. An absent pattern admits all names, and any pattern admits the unknown
one. -/
def admits (pattern : Option String) (name : String) : Bool :=
  match given pattern with
  | none => true
  | some pattern =>
    let name := Text.lower name
    name = unknownName || Pattern.matchesValue false (Text.lower pattern) name

/-- The logs described here include the entry. -/
def LogSource.covers (source : LogSource) (entry : LogEntry) : Except Fault Bool :=
  if source.isEmpty then .ok true
  else do
    let product ← (entry.described "product").coerce
    let category ← ((entry.described "category").orElse (.text entry.service)).coerce
    return admits source.service entry.service && admits source.product product &&
      admits source.category category

end Sigma

end LogAlert
