/-
# LogAlert.Proofs.Alert.Tallies -- what a pass writes

A pass checks rules one after the other.  A `Tally` is a firing that a pass has written into the
history, together with the stored rows that were counted for it, and says whether the firing was
reported: it was unless the lock of its rule could not be given back.  `ruleTallies` lists the
tallies of a pass.

* `checkRules_eq`: the firings that a pass reports are those of its tallies that were told, and the
  history gains the rows of all its tallies.
* `ruleTallies_names`: these rows have names that were not handed out before.
-/
import LogAlert.Proofs.Alert.Checking
import LogAlert.Proofs.Ids

set_option autoImplicit false

namespace LogAlert.Alert

open List

/-- A firing, the rows that were counted for it, and whether it was reported. -/
structure Tally where
  firing : Firing
  rows : List LogRow
  told : Bool

/-- The row of the history that the firing is written into. -/
def Tally.row (tally : Tally) : HistoryRow := tally.firing.row

/-- The tallies of the rules that fire when these rules are checked one after the other. -/
def ruleTallies (now : Time.Instant) : List Rule → Store → Ids → Link → Locking → List Tally
  | [], _, _, _, _ => []
  | rule :: rest, store, ids, link, locking =>
    let (told, link', locking') := locking.after link rule.id
    match rule.verdict locking store now link with
    | .ok (some count) =>
      ⟨⟨ids.fresh.1, rule, count, now⟩, rule.countedRows store now, told⟩ ::
        ruleTallies now rest (rule.recorded store ids.fresh.1 count now) ids.fresh.2 link' locking'
    | _ => ruleTallies now rest store ids link' locking'

variable {now : Time.Instant} {rules : List Rule} {store : Store} {ids : Ids} {link : Link}
  {locking : Locking}

/-- **What a pass does.**  It reports the firings of the tallies that were told, in their order; the
history gains the rows of all tallies, and nothing else of the store changes. -/
theorem checkRules_eq (now : Time.Instant) (rules : List Rule) (store : Store) (ids : Ids)
    (link : Link) (locking : Locking) :
    let tallies := ruleTallies now rules store ids link locking
    (checkRules now rules store ids link locking).1 =
        (tallies.filter (·.told)).map (·.firing) ∧
      (checkRules now rules store ids link locking).2.1 =
        { store with history := store.history ++ tallies.map (·.row) } := by
  induction rules generalizing store ids link locking with
  | nil => exact ⟨rfl, by simp only [ruleTallies, checkRules, map_nil, append_nil]⟩
  | cons rule rest ih =>
      rw [checkRules_cons, ruleTallies]
      rcases locking.after link rule.id with ⟨released, later, locks⟩
      rcases rule.verdict locking store now link with error | _ | count
      · exact ih ..
      · exact ih ..
      · obtain ⟨reported, written⟩ :=
          ih (rule.recorded store ids.fresh.1 count now) ids.fresh.2 later locks
        refine ⟨?_, ?_⟩
        · cases released with
          | false => exact reported
          | true => exact congrArg _ reported
        · dsimp only
          rw [written, map_cons, Rule.recorded, append_assoc]
          rfl

/-- The rows that a pass adds have names that were not handed out before, and differ. -/
theorem ruleTallies_names (now : Time.Instant) (rules : List Rule) (store : Store) (ids : Ids)
    (link : Link) (locking : Locking) :
    let tallies := ruleTallies now rules store ids link locking
    let behind := (checkRules now rules store ids link locking).2.2.1
    ids.Advances behind ∧ (tallies.map (·.firing.history)).Nodup ∧
      ∀ tally ∈ tallies,
        ¬ ids.Issued tally.firing.history ∧ behind.Issued tally.firing.history := by
  induction rules generalizing store ids link locking with
  | nil => exact ⟨.refl ids, nodup_nil, nofun⟩
  | cons rule rest ih =>
      rw [checkRules_cons, ruleTallies]
      rcases locking.after link rule.id with ⟨released, later, locks⟩
      rcases rule.verdict locking store now link with error | _ | count
      · exact ih ..
      · exact ih ..
      · obtain ⟨advances, distinct, named⟩ :=
          ih (rule.recorded store ids.fresh.1 count now) ids.fresh.2 later locks
        refine ⟨(Ids.Advances.fresh ids).trans advances, nodup_cons.2 ⟨fun again => ?_, distinct⟩,
          forall_mem_cons.2 ⟨⟨?_, ?_⟩, ?_⟩⟩
        · obtain ⟨tally, member, same⟩ := mem_map.1 again
          exact (named tally member).1 (same ▸ ids.issued_fresh)
        · exact fun issued => issued.ne_fresh (.refl ids) rfl
        · exact ids.issued_fresh.mono advances
        · intro tally member
          obtain ⟨fresh, issued⟩ := named tally member
          exact ⟨fun early => fresh (early.mono (.fresh ids)), issued⟩

/-- A tally is one of a rule of the pass that was due in a store with the same logs. -/
theorem due_of_mem_ruleTallies {tally : Tally}
    (member : tally ∈ ruleTallies now rules store ids link locking) :
    tally.firing.rule ∈ rules ∧ tally.firing.time = now ∧
      ∃ before : Store, tally.firing.rule.due before now = .ok (some tally.firing.count) := by
  induction rules generalizing store ids link locking with
  | nil => cases member
  | cons rule rest ih =>
      rw [ruleTallies] at member
      rcases locking.after link rule.id with ⟨released, later, locks⟩
      rcases verdict : rule.verdict locking store now link with error | _ | count
      · rw [verdict] at member
        exact (ih member).imp_left (mem_cons_of_mem _)
      · rw [verdict] at member
        exact (ih member).imp_left (mem_cons_of_mem _)
      · rw [verdict] at member
        rcases mem_cons.1 member with rfl | others
        · exact ⟨mem_cons_self, rfl, store, Rule.due_of_verdict verdict⟩
        · exact (ih others).imp_left (mem_cons_of_mem _)

end LogAlert.Alert
