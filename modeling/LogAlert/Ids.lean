/-
# LogAlert.Ids -- a supply of identifiers

Records that come without an identifier are given a new one. A supply hands out numbered names one
after the other, so that no name is handed out twice.
-/
import LogAlert.Text.Digit

set_option autoImplicit false

namespace LogAlert

/-- Names with a common stem, of which so many have been handed out. -/
structure Ids where
  stem : String
  issued : Nat
deriving DecidableEq, Repr, Inhabited

namespace Ids

/-- The name with the given number. -/
def nameAt (stem : String) (n : Nat) : String := stem ++ "-" ++ Text.natText n

/-- The next name, and the supply without it. -/
def fresh (ids : Ids) : String × Ids :=
  (nameAt ids.stem (ids.issued + 1), { ids with issued := ids.issued + 1 })

/-- The given name, or the next one if it is empty. -/
def orFresh (ids : Ids) (name : String) : String × Ids :=
  if name = "" then ids.fresh else (name, ids)

end Ids

end LogAlert
