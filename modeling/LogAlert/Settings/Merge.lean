/-
# LogAlert.Settings.Merge -- settings over defaults

`merge` writes settings over others. Mappings are merged entry by entry; any other value takes the
place of the value below it. Null takes the place of nothing: where there is a value below, that is
kept.
-/
import LogAlert.Value.Basic

set_option autoImplicit false

namespace LogAlert.Settings

mutual

/-- Write one entry over others. -/
def mergeEntry (base : List (Value × Value)) (key : Value) : Value → List (Value × Value)
  | .null =>
    match Value.lookupIn base key with
    | some _ => base
    | none => Value.insertIn base key .null
  | .map upper =>
    match Value.lookupIn base key with
    | some (.map below) => Value.insertIn base key (.map (merge below upper))
    | _ => Value.insertIn base key (.map upper)
  | v => Value.insertIn base key v

/-- Write entries over others. -/
def merge (base : List (Value × Value)) : List (Value × Value) → List (Value × Value)
  | [] => base
  | (key, v) :: rest => merge (mergeEntry base key v) rest

end

end LogAlert.Settings
