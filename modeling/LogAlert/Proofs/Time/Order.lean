/-
# LogAlert.Proofs.Time.Order -- the order of instants

Instants are ordered as the microseconds that they are made of.
-/
import LogAlert.Time.DateTime
import Mathlib.Order.Lattice
import Mathlib.Tactic.Common

set_option autoImplicit false

namespace LogAlert.Time

instance : LinearOrder Instant where
  le_refl a := Int.le_refl a.micros
  le_trans _ _ _ ab bc := Int.le_trans ab bc
  lt_iff_le_not_ge _ _ := Int.lt_iff_le_and_not_ge
  le_antisymm := by
    rintro ⟨a⟩ ⟨b⟩ ab ba
    exact congrArg Instant.mk (Int.le_antisymm ab ba)
  le_total a b := Int.le_total a.micros b.micros
  toDecidableLE := inferInstance

end LogAlert.Time
