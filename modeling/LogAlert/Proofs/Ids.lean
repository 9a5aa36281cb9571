/-
# LogAlert.Proofs.Ids -- names are handed out once

The names of a supply are told apart by their numbers (`nameAt_injective`), and the numbers only
grow: `Advances before after` says that the later supply has handed out all that the earlier one
had.  So a name that is still to come is none of those that were `Issued`.
-/
import LogAlert.Ids
import Mathlib.Data.List.Nodup
import Mathlib.Tactic.Common

set_option autoImplicit false

namespace LogAlert.Ids

/-- The later supply continues the earlier one. -/
structure Advances (before after : Ids) : Prop where
  stem : after.stem = before.stem
  issued : before.issued ≤ after.issued

/-- The name has been handed out. -/
def Issued (ids : Ids) (name : String) : Prop := ∃ n ≤ ids.issued, name = nameAt ids.stem n

theorem nameAt_injective {stem : String} {m n : Nat} (same : nameAt stem m = nameAt stem n) :
    m = n := by
  have chars := congrArg String.toList same
  simp only [nameAt, Text.natText, String.toList_append, Nat.toList_repr] at chars
  have digits := congrArg (fun ds => Nat.ofDigitChars 10 ds 0) (List.append_cancel_left chars)
  simpa only [Nat.ofDigitChars_ten_toDigits] using digits

namespace Advances

variable {ids before after : Ids}

theorem refl (ids : Ids) : ids.Advances ids := ⟨rfl, Nat.le_refl _⟩

theorem trans {middle : Ids} (one : before.Advances middle) (two : middle.Advances after) :
    before.Advances after :=
  ⟨two.stem.trans one.stem, Nat.le_trans one.issued two.issued⟩

theorem fresh (ids : Ids) : ids.Advances ids.fresh.2 := ⟨rfl, Nat.le_succ _⟩

theorem orFresh (ids : Ids) (name : String) : ids.Advances (ids.orFresh name).2 := by
  rw [Ids.orFresh]
  split
  · exact fresh ids
  · exact refl ids

end Advances

variable {before after : Ids} {name : String}

theorem Issued.mono (issued : before.Issued name) (advances : before.Advances after) :
    after.Issued name := by
  obtain ⟨n, within, rfl⟩ := issued
  exact ⟨n, Nat.le_trans within advances.issued, by rw [advances.stem]⟩

theorem issued_fresh (ids : Ids) : ids.fresh.2.Issued ids.fresh.1 :=
  ⟨ids.issued + 1, Nat.le_refl _, rfl⟩

/-- The next name is new. -/
theorem Issued.ne_fresh (issued : before.Issued name) (advances : before.Advances after) :
    name ≠ after.fresh.1 := by
  obtain ⟨n, within, rfl⟩ := issued
  intro same
  rw [fresh, advances.stem] at same
  have number := nameAt_injective same
  have grown := advances.issued
  omega

/-- A new name keeps names distinct. -/
theorem nodup_concat_fresh {names : List String} (issued : ∀ name ∈ names, before.Issued name)
    (distinct : names.Nodup) (advances : before.Advances after) :
    (names ++ [after.fresh.1]).Nodup := by
  refine List.nodup_append.2 ⟨distinct, List.nodup_singleton _, fun name old other new => ?_⟩
  rw [List.mem_singleton.1 new]
  exact (issued name old).ne_fresh advances

end LogAlert.Ids
