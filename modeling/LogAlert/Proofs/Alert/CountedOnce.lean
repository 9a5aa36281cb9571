/-
# LogAlert.Proofs.Alert.CountedOnce -- no log is counted for two firings of a rule

`Happening` lists what can happen to a service between two checks: logs arrive, late ones among
them, projects, rules and rows of the history are added, the clock is set forwards or backwards,
other checkers take and free locks, and commands are lost, releases of locks among them.

The invariant `Accounted` says of the tallies of one rule that all rows in them together are stored
rows, each taken once, and that each of them is covered by a firing in the history, stamped no
earlier than the row.  A later firing counts only rows behind the whole history of the rule
(`time_of_mem_countedRows`), so it finds none of those rows again (`Accounted.fire`).

Main statement: `firings_share_no_row`, over every run from every service.
-/
import LogAlert.Proofs.Alert.Tallies
import LogAlert.Service
import Mathlib.Algebra.GroupWithZero.Nat
import Mathlib.Data.List.Perm.Subperm

set_option autoImplicit false

namespace LogAlert

open List

/-- A selection of further members extends what has been taken from a list already. -/
theorem subperm_append_filter {α : Type} {taken all : List α} {p : α → Bool}
    (stored : taken <+~ all) (others : ∀ x ∈ taken, p x = false) :
    taken ++ all.filter p <+~ all := by
  have kept : taken.filter (fun x => !p x) = taken :=
    List.filter_eq_self.2 fun x member => by simp [others x member]
  have rest : taken <+~ all.filter fun x => !p x := kept ▸ stored.filter _
  have split : all.filter (fun x => !p x) ++ all.filter p ~ all :=
    perm_append_comm.trans (filter_append_perm p all)
  exact ((subperm_append_right _).2 rest).trans split.subperm

namespace Alert

/-- What holds of the tallies of one rule and the store at any time: the counted rows are distinct
rows of the store, no two tallies share a row, each tally is that of a firing of the rule in the
history, and this firing covers its rows. -/
structure Accounted (id : String) (tallies : List Tally) (store : Store) : Prop where
  stored : tallies.flatMap (·.rows) <+~ store.logs
  apart : tallies.Pairwise fun a b => a.rows.Disjoint b.rows
  recorded : ∀ tally ∈ tallies, tally.row ∈ store.history ∧ tally.row.rule = id
  covered : ∀ tally ∈ tallies, ∀ row ∈ tally.rows, row.time ≤ tally.row.time
  exact : ∀ tally ∈ tallies, tally.firing.count = tally.rows.length

namespace Accounted

variable {id : String} {tallies : List Tally} {store after : Store}

theorem start (id : String) (store : Store) : Accounted id [] store :=
  ⟨nil_subperm, .nil, nofun, nofun, nofun⟩

theorem grow (accounted : Accounted id tallies store) (grows : Store.Grows store after) :
    Accounted id tallies after where
  stored := accounted.stored.trans grows.logs.sublist.subperm
  apart := accounted.apart
  recorded tally member :=
    (accounted.recorded tally member).imp_left fun stored => grows.history.subset stored
  covered := accounted.covered
  exact := accounted.exact

variable {rule : Rule} {now : Time.Instant}

/-- A further firing counts none of the rows that were counted before. -/
theorem not_mem_countedRows (accounted : Accounted id tallies store) (own : rule.id = id)
    {tally : Tally} (member : tally ∈ tallies) {row : LogRow} (counted : row ∈ tally.rows) :
    row ∉ rule.countedRows store now := by
  intro again
  obtain ⟨inHistory, same⟩ := accounted.recorded tally member
  have behind := (time_of_mem_countedRows again).2 tally.row inHistory (same.trans own.symm)
  exact absurd behind (not_lt.2 (accounted.covered tally member row counted))

theorem grows_recorded (rule : Rule) (store : Store) (name : String) (count : Nat)
    (now : Time.Instant) : Store.Grows store (rule.recorded store name count now) :=
  { Store.Grows.refl store with history := List.prefix_append _ _ }

theorem fire (accounted : Accounted id tallies store) (own : rule.id = id) {count : Nat}
    (due : rule.due store now = .ok (some count)) (name : String) (told : Bool) :
    Accounted id (tallies ++ [⟨⟨name, rule, count, now⟩, rule.countedRows store now, told⟩])
      (rule.recorded store name count now) := by
  obtain ⟨rfl, -⟩ := Rule.due_eq_some due
  have before := accounted.grow
    (grows_recorded rule store name (rule.countedRows store now).length now)
  refine ⟨?_, ?_, ?_, ?_, ?_⟩
  · obtain ⟨p, selected⟩ := rule.countedRows_eq_filter store now
    rw [flatMap_append, flatMap_singleton, selected]
    refine subperm_append_filter accounted.stored fun row taken => ?_
    obtain ⟨tally, member, counted⟩ := mem_flatMap.1 taken
    have absent : row ∉ rule.countedRows store now :=
      accounted.not_mem_countedRows own member counted
    have present : row ∈ store.logs := accounted.stored.subset taken
    rw [selected, mem_filter, not_and] at absent
    exact Bool.eq_false_iff.2 (absent present)
  · refine pairwise_append.2 ⟨accounted.apart, pairwise_singleton _ _, ?_⟩
    intro tally member last isLast row counted
    obtain rfl := mem_singleton.1 isLast
    exact accounted.not_mem_countedRows own member counted
  · exact forall_mem_append.2 ⟨before.recorded,
      forall_mem_singleton.2 ⟨mem_append_right _ (mem_singleton_self _), own⟩⟩
  · exact forall_mem_append.2 ⟨accounted.covered,
      forall_mem_singleton.2 fun _ counted => (time_of_mem_countedRows counted).1⟩
  · exact forall_mem_append.2 ⟨accounted.exact, forall_mem_singleton.2 rfl⟩

/-- Checking several rules one after the other keeps the account of each rule. -/
theorem checkRules (accounted : Accounted id tallies store) (now : Time.Instant)
    (rules : List Rule) (ids : Ids) (link : Link) (locking : Locking) :
    Accounted id
      (tallies ++ (ruleTallies now rules store ids link locking).filter (·.firing.rule.id = id))
      (checkRules now rules store ids link locking).2.1 := by
  induction rules generalizing tallies store ids link locking with
  | nil => simpa [ruleTallies, Alert.checkRules] using accounted
  | cons rule rest ih =>
      rw [checkRules_cons, ruleTallies]
      rcases locking.after link rule.id with ⟨told, later, locks⟩
      rcases verdict : rule.verdict locking store now link with error | _ | count
      · exact ih accounted ids later locks
      · exact ih accounted ids later locks
      · dsimp only
        rw [filter_cons]
        by_cases own : rule.id = id
        · simp only [own, decide_true, if_true]
          rw [append_cons]
          exact ih (accounted.fire own (Rule.due_of_verdict verdict) _ told) ids.fresh.2 later locks
        · simp only [own, decide_false, Bool.false_eq_true, if_false]
          exact ih (accounted.grow (grows_recorded ..)) ids.fresh.2 later locks

end Accounted

end Alert

namespace Service

open Alert

/-! ## Runs of a service -/

/-- What can happen to a service, as far as its alert rules are concerned. -/
inductive Happening where
  | logsArrive (logs : List Value) (project : Option String)
  | projectAdded (organization name : Option String)
  | ruleAdded (new : Store.NewAlertRule)
  /-- Somebody else writes a firing of a rule into the history. -/
  | historyAdded (rule : Option String) (count : Int) (time : Time.Instant)
  | clockSet (now : Time.Instant)
  /-- Other checkers take and free locks. -/
  | locksChange (locking : Locking)
  /-- The connection to the broker fails or comes back. -/
  | linkChanges (link : Link)
  | ruleChecked (rule : Rule)
  | allChecked

/-- The service after something happened. -/
def after (service : Service) : Happening → Service
  | .logsArrive logs project => (service.insertLogs logs project).2
  | .projectAdded organization name =>
    (service.change fun store ids => store.createProject ids organization name).2
  | .ruleAdded new => (service.change fun store ids => store.createAlertRule ids new).2
  | .historyAdded rule count time =>
    (service.change fun store ids => store.insertHistory ids rule count time).2
  | .clockSet now => { service with now }
  | .locksChange locking => { service with locking }
  | .linkChanges link => { service with link }
  | .ruleChecked rule => (service.checkRule rule).2
  | .allChecked => service.checkAll.2

/-- The firings that are reported when something happens. -/
def firings (service : Service) : Happening → List Firing
  | .ruleChecked rule =>
    match (service.checkRule rule).1 with
    | .ok (some firing) => [firing]
    | _ => []
  | .allChecked => service.checkAll.1
  | _ => []

/-- The tallies of the rules that fire when something happens. -/
def tallies (service : Service) : Happening → List Tally
  | .ruleChecked rule =>
    ruleTallies service.now [rule] service.store service.ids service.link service.locking
  | .allChecked =>
    ruleTallies service.now (service.store.enabledAlertRules none none) service.store service.ids
      service.link service.locking
  | _ => []

/-- The service after a run. -/
def afterAll (service : Service) (run : List Happening) : Service := run.foldl after service

/-- The firings that are reported in a run. -/
def allFirings : Service → List Happening → List Firing
  | _, [] => []
  | service, step :: rest => service.firings step ++ allFirings (service.after step) rest

/-- The tallies of a run. -/
def allTallies : Service → List Happening → List Tally
  | _, [] => []
  | service, step :: rest => service.tallies step ++ allTallies (service.after step) rest

theorem change_grows {α : Type} (service : Service)
    (f : Store → Ids → Except StoreError (α × Store × Ids))
    (grows : ∀ {x after ids}, f service.store service.ids = .ok (x, after, ids) →
      Store.Grows service.store after) :
    Store.Grows service.store (service.change f).2.store := by
  unfold change
  cases changed : f service.store service.ids with
  | error error => exact .refl _
  | ok result =>
      obtain ⟨x, store, ids⟩ := result
      exact grows changed

/-- A check of one rule is a check of a list of rules. -/
theorem checkRule_singleton (service : Service) (rule : Rule) :
    service.firings (.ruleChecked rule) =
        (checkRules service.now [rule] service.store service.ids service.link
          service.locking).1 ∧
      (service.checkRule rule).2.store =
        (checkRules service.now [rule] service.store service.ids service.link
          service.locking).2.1 := by
  rw [checkRules_cons, firings, checkRule, checkRule_eq]
  generalize service.locking.after service.link rule.id = behind
  obtain ⟨told, later⟩ := behind
  rcases rule.verdict service.locking service.store service.now service.link
    with error | _ | count <;> cases told <;> exact ⟨rfl, rfl⟩

theorem tallies_firing (service : Service) (step : Happening) :
    ((service.tallies step).filter (·.told)).map (·.firing) = service.firings step := by
  cases step with
  | ruleChecked rule =>
      rw [(service.checkRule_singleton rule).1]
      exact (checkRules_eq ..).1.symm
  | allChecked => exact (checkRules_eq ..).1.symm
  | _ => rfl

theorem allTallies_firing (service : Service) (run : List Happening) :
    ((service.allTallies run).filter (·.told)).map (·.firing) = service.allFirings run := by
  induction run generalizing service with
  | nil => rfl
  | cons step rest ih =>
      simp only [allTallies, allFirings, filter_append, map_append, tallies_firing, ih]

/-- Whatever happens keeps the account of each rule. -/
theorem accounted_after {id : String} {earlier : List Tally} {service : Service}
    (accounted : Accounted id earlier service.store) (step : Happening) :
    Accounted id (earlier ++ (service.tallies step).filter (·.firing.rule.id = id))
      (service.after step).store := by
  have added (grows : Store.Grows service.store (service.after step).store)
      (none : service.tallies step = []) :
      Accounted id (earlier ++ (service.tallies step).filter (·.firing.rule.id = id))
        (service.after step).store := by
    rw [none, filter_nil, append_nil]
    exact accounted.grow grows
  cases step with
  | logsArrive logs project =>
      refine added (service.change_grows _ fun changed => ?_) rfl
      obtain ⟨entries, -, inserted⟩ := bind_eq_ok.1 changed
      exact Store.insertLogs_grows inserted
  | projectAdded organization name =>
      exact added (service.change_grows _ Store.createProject_grows) rfl
  | ruleAdded new => exact added (service.change_grows _ Store.createAlertRule_grows) rfl
  | historyAdded rule count time =>
      exact added (service.change_grows _ Store.insertHistory_grows) rfl
  | clockSet now => exact added (.refl _) rfl
  | locksChange locking => exact added (.refl _) rfl
  | linkChanges link => exact added (.refl _) rfl
  | ruleChecked rule =>
      have checked :=
        accounted.checkRules service.now [rule] service.ids service.link service.locking
      rw [← (service.checkRule_singleton rule).2] at checked
      exact checked
  | allChecked => exact accounted.checkRules ..

theorem accounted_afterAll {id : String} {earlier : List Tally} {service : Service}
    (accounted : Accounted id earlier service.store) (run : List Happening) :
    Accounted id (earlier ++ (service.allTallies run).filter (·.firing.rule.id = id))
      (service.afterAll run).store := by
  induction run generalizing earlier service with
  | nil => simpa [allTallies, afterAll] using accounted
  | cons step rest ih =>
      have next := ih (accounted_after accounted step)
      rwa [append_assoc, ← filter_append] at next

/-- **No log is counted twice.**  In every run of every service, the firings that checks report are
those of the run's tallies that were told; each tally is that of a row in the history, and counts
stored rows; no row is counted for two firings of one rule, whether they were reported or not; and so
the counts of a rule's firings add up to no more than the number of stored logs. -/
theorem firings_share_no_row (service : Service) (run : List Happening) (id : String) :
    let own := (service.allTallies run).filter (·.firing.rule.id = id)
    let stored := (service.afterAll run).store.logs
    ((service.allTallies run).filter (·.told)).map (·.firing) = service.allFirings run ∧
      (∀ tally ∈ own, tally.row ∈ (service.afterAll run).store.history ∧
        tally.firing.count = tally.rows.length ∧ tally.rows ⊆ stored) ∧
      (own.Pairwise fun a b => a.rows.Disjoint b.rows) ∧
      (own.map (·.firing.count)).sum ≤ stored.length := by
  intro own stored
  have accounted : Accounted id own (service.afterAll run).store :=
    accounted_afterAll (.start id service.store) run
  refine ⟨service.allTallies_firing run, fun tally member =>
    ⟨(accounted.recorded tally member).1, accounted.exact tally member, ?_⟩, accounted.apart, ?_⟩
  · exact fun row counted => accounted.stored.subset (mem_flatMap.2 ⟨tally, member, counted⟩)
  · calc (own.map (·.firing.count)).sum
        = (own.map (·.rows.length)).sum := by
          rw [map_congr_left accounted.exact]
      _ = (own.flatMap (·.rows)).length := by rw [length_flatMap]
      _ ≤ stored.length := accounted.stored.length_le

end Service

end LogAlert
