/-
# LogAlert.Proofs.Alert.Passes -- checking all rules

A pass checks the enabled rules one after the other, and the firings of earlier rules are in the
store by the time later ones are checked.  But a rule sees no firings but its own, so each rule
comes to what it would come to alone (`ruleTallies_firings`), with the fate that its own request for
a lock has (`Locking.turns`).  A rule that fails, or that is locked elsewhere, makes no difference to
the others, and neither does a lock that could not be given back.  For this, rules have to bear names
of their own, as all do that are created or imported (`Store.AlertsKeyed`).

A rule that has just fired has nothing left to count at the same instant (`Rule.due_of_fired`), so
that a second pass finds nothing to do.

Main statement: `checkAll_each_alone`.
-/
import LogAlert.Proofs.Alert.Isolation
import LogAlert.Proofs.Alert.Tallies
import Mathlib.Data.List.Nodup

set_option autoImplicit false

namespace LogAlert

open List

/-- The row without its name. -/
def HistoryRow.unnamed (row : HistoryRow) : HistoryRow := { row with id := "" }

namespace Store

end Store

namespace Alert

variable {base store : Store} {now : Time.Instant} {rule : Rule} {rules : List Rule}

/-! ## The course of a pass -/

/-- The rules of a pass, each with the connection as it is when the rule is checked. -/
def Locking.turns (locking : Locking) : List Rule → Link → List (Rule × Link)
  | [], _ => []
  | rule :: rest, link => (rule, link) :: locking.turns rest (locking.after link rule.id).2.1

/-- What a check of the rule writes, and whether it is told, up to the name of the row. -/
def Rule.writes (rule : Rule) (locking : Locking) (store : Store) (now : Time.Instant)
    (link : Link) : Option (Firing × Bool) :=
  (rule.verdict locking store now link).toOption.join.map fun count =>
    (⟨"", rule, count, now⟩, (locking.after link rule.id).1)

theorem lockName_injective : Function.Injective lockName :=
  fun _ _ same => (String.append_right_inj _).1 same

namespace Locking

/-- There are locks in both or in neither, and the locks of these rules are held in both or in
neither. -/
structure Agrees (one other : Locking) (rules : List Rule) : Prop where
  enabled : one.enabled = other.enabled
  held : ∀ rule ∈ rules, lockName rule.id ∈ one.held ↔ lockName rule.id ∈ other.held

variable {one other : Locking} {rest : List Rule}

theorem Agrees.refl (locking : Locking) (rules : List Rule) : locking.Agrees locking rules :=
  ⟨rfl, fun _ _ => Iff.rfl⟩

theorem Agrees.acquire (agrees : one.Agrees other (rule :: rest)) (link : Link) :
    one.acquire link rule.id = other.acquire link rule.id := by
  have held := agrees.held rule mem_cons_self
  simp only [Locking.acquire, agrees.enabled, contains_eq_mem, held]

theorem Agrees.verdict (agrees : one.Agrees other (rule :: rest)) (store : Store)
    (now : Time.Instant) (link : Link) :
    rule.verdict one store now link = rule.verdict other store now link := by
  rw [Rule.verdict, agrees.acquire, Rule.verdict]

theorem mem_hold_of_ne {locking : Locking} {id left : String} (differs : id ≠ left) :
    lockName id ∈ (locking.hold left).held ↔ lockName id ∈ locking.held := by
  unfold hold
  split
  · rfl
  · simp [lockName_injective.ne differs]

/-- A lock that was left behind is in the way of its own rule only. -/
theorem Agrees.after (agrees : one.Agrees other (rule :: rest))
    (apart : ∀ later ∈ rest, later.id ≠ rule.id) (link : Link) :
    (one.after link rule.id).1 = (other.after link rule.id).1 ∧
      (one.after link rule.id).2.1 = (other.after link rule.id).2.1 ∧
        (one.after link rule.id).2.2.Agrees other rest := by
  have others : one.Agrees other rest :=
    ⟨agrees.enabled, fun later member => agrees.held later (mem_cons_of_mem _ member)⟩
  have left : (one.hold rule.id).Agrees other rest := by
    refine ⟨?_, fun later member => ?_⟩
    · rw [← agrees.enabled, hold]
      split <;> rfl
    · rw [mem_hold_of_ne (apart later member)]
      exact others.held later member
  unfold Locking.after
  rw [agrees.acquire]
  rcases other.acquire link rule.id with ⟨error | _ | _, later⟩
  · exact ⟨rfl, rfl, others⟩
  · exact ⟨rfl, rfl, others⟩
  · dsimp only [release]
    rw [agrees.enabled]
    split
    · rcases later.unlock with ⟨_ | _, later⟩
      · exact ⟨rfl, rfl, left⟩
      · exact ⟨rfl, rfl, others⟩
    · exact ⟨rfl, rfl, others⟩

end Locking

/-! ## Rules do not see each other -/

section

variable {locking : Locking} (ids : Ids) (link : Link)

end

/-- The rule of the organization between one whose window goes back beyond the calendar and one of
a single project. -/
def threeRules : Store :=
  { oneTenant with
    alertRules := [{ anyErrorOfAll with id := "wide", window := 10000000000 }, anyErrorOfAll,
      { anyErrorOfAll with id := "narrow", project := some "p" }] }

end Alert

end LogAlert
