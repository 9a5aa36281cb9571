/-
# LogAlert.Proofs.Alert.LateLogs -- which logs a rule accounts for

A rule watches the logs of its scope, levels and service that are stamped within its window
(`Rule.Watches`).  A check counts those of them that are stamped behind all earlier firings
(`mem_countedRows_iff`).  So a log is passed over once a firing is stamped no earlier than it, and
it depends on when the log was stored whether an earlier firing has counted it: it has not if the
log was `Late`, that is, if such a firing was in the history before the log was stored.

The runs here are those in which logs arrive, in any order, time passes, and the rule is checked
(`Watching`); other rules may be checked in between.  The invariant `Settled` says of the watched
logs that are behind a firing that each of them was counted, was late, or has left the window.

* `counted_iff_not_late`: at each check a watched log was counted by an earlier firing, or is among
  those whose number the check compares with the threshold, exactly if it was not late.
* `late_log_not_counted`: not every watched log is accounted for.
-/
import LogAlert.Proofs.Alert.CountedOnce
import Mathlib.Data.List.Induction
import Mathlib.Order.MinMax

set_option autoImplicit false

namespace LogAlert

namespace Store

/-- Which rows a query asks for. -/
theorem LogQuery.admits_iff (query : LogQuery) (row : LogRow) :
    query.admits row ↔ query.since < row.time ∧ (∀ last, query.until? = some last → row.time ≤ last) ∧
      row.level ∈ query.levels ∧ (∃ project ∈ query.projects, row.project = some project) ∧
      ∀ service, Sigma.given query.service = some service →
        row.service = service ∨ row.service = unknownName := by
  simp only [admits, Bool.and_eq_true, decide_eq_true_eq, Option.all_eq_true, List.contains_iff_mem,
    Option.any_eq_true, and_assoc]
  refine and_congr_right fun _ => and_congr_right fun _ => and_congr_right fun _ =>
    and_congr ⟨?_, ?_⟩ ?_
  · rintro ⟨project, own, member⟩
    exact ⟨project, member, own⟩
  · rintro ⟨project, member, own⟩
    exact ⟨project, own, member⟩
  · cases Sigma.given query.service with
    | none => simp
    | some name => simp

end Store

namespace Alert

open Store

variable {store after : Store} {ids ids' : Ids} {now since : Time.Instant} {rule : Rule}
  {row : LogRow}

/-! ## What one check counts -/

/-- A firing of the rule in the history is stamped no earlier than the log. -/
def Rule.Passed (rule : Rule) (store : Store) (row : LogRow) : Prop :=
  ∃ entry ∈ store.history, entry.rule = rule.id ∧ row.time ≤ entry.time

/-- The log is stored, and of the scope, the levels and the service of the rule. -/
structure Rule.Concerns (rule : Rule) (store : Store) (row : LogRow) : Prop where
  stored : row ∈ store.logs
  scope : ∃ project ∈ rule.scope store, row.project = some project
  level : row.level ∈ rule.levels
  service : ∀ service, Sigma.given rule.service = some service →
    row.service = service ∨ row.service = unknownName

/-- The log is stamped behind the start of the rule's window, which ends now. -/
def Rule.InWindow (rule : Rule) (now : Time.Instant) (row : LogRow) : Prop :=
  now.micros - rule.window * 60 * Time.second < row.time.micros

/-- The rule watches the log: the log concerns it and lies in its window. -/
structure Rule.Watches (rule : Rule) (store : Store) (now : Time.Instant) (row : LogRow) : Prop
    extends rule.Concerns store row where
  behindStart : rule.InWindow now row
  upToNow : row.time ≤ now

/-- A log that has left the window does not come back. -/
theorem Rule.InWindow.mono {later : Time.Instant} (passes : now ≤ later)
    (inside : rule.InWindow later row) : rule.InWindow now row := by
  have micros : now.micros ≤ later.micros := passes
  simp only [Rule.InWindow] at inside ⊢
  omega

theorem Rule.scope_congr (rule : Rule) (same : after.projects = store.projects) :
    rule.scope after = rule.scope store := by
  simp only [Rule.scope, Store.projectIds, same]

/-- What follows from the number of logs that count: the rule fires if its threshold is reached. -/
def Rule.outcome (rule : Rule) (store : Store) (ids : Ids) (now : Time.Instant) (count : Nat) :
    Except StoreError (Option Firing × Store × Ids) :=
  if (count : Int) < rule.threshold then .ok (none, store, ids)
  else do
    let (history, store, ids) ← store.insertHistory ids (some rule.id) count now
    return (some ⟨history, rule, count, now⟩, store, ids)

theorem minutesBefore_eq_ok {start : Time.Instant} {n : Int}
    (begins : now.minutesBefore n = .ok start) :
    start.micros = now.micros - n * 60 * Time.second := by
  obtain ⟨span, measured, begins⟩ := bind_eq_ok.1 begins
  have same : span = n * 60 * Time.second := by
    simp only [Time.minutes] at measured
    split at measured
    · cases measured
    · split at measured
      · cases measured
      · cases measured
        rfl
  dsimp only at begins
  split at begins
  · cases begins
    rw [same]
  · cases begins

/-- Counting begins behind the start of the window and behind all firings of the rule. -/
theorem countedAfter_lt_iff (begins : rule.countedAfter store now = .ok since) (row : LogRow) :
    since < row.time ↔ rule.InWindow now row ∧ ¬ rule.Passed store row := by
  obtain ⟨start, opens, latest⟩ := bind_eq_ok.1 begins
  have window : start < row.time ↔ rule.InWindow now row := by
    rw [Rule.InWindow, ← minutesBefore_eq_ok opens]
    rfl
  have behind (later : since < row.time) : ¬ rule.Passed store row := by
    rintro ⟨entry, member, own, covers⟩
    exact absurd ((time_le_countedAfter begins member own).trans_lt later) (not_lt.2 covers)
  rw [← window]
  cases last : store.lastFiring rule.id with
  | none =>
      simp only [last] at latest
      cases latest
      exact ⟨fun later => ⟨later, behind later⟩, And.left⟩
  | some time =>
      simp only [last] at latest
      cases latest
      obtain ⟨entry, member, own, rfl⟩ := mem_history_of_lastFiring last
      rw [later_eq_max, max_lt_iff] at behind ⊢
      refine ⟨fun later => ⟨later.2, behind later⟩, fun ⟨opened, open'⟩ => ⟨?_, opened⟩⟩
      exact not_le.1 fun covers => open' ⟨entry, member, own, covers⟩

/-- A check counts the watched logs that no firing has passed. -/
theorem mem_countedRows_iff (begins : rule.countedAfter store now = .ok since) :
    row ∈ rule.countedRows store now ↔ rule.Watches store now row ∧ ¬ rule.Passed store row := by
  have lower := countedAfter_lt_iff begins row
  rw [Rule.countedRows_eq begins, selectLogs, List.mem_filter, LogQuery.admits_iff]
  constructor
  · rintro ⟨stored, later, upToNow, level, scope, service⟩
    obtain ⟨opened, notPassed⟩ := lower.1 later
    exact ⟨⟨⟨stored, scope, level, service⟩, opened, upToNow now rfl⟩, notPassed⟩
  · rintro ⟨⟨⟨stored, scope, level, service⟩, opened, upToNow⟩, notPassed⟩
    refine ⟨stored, lower.2 ⟨opened, notPassed⟩, ?_, level, scope, service⟩
    rintro _ ⟨⟩
    exact upToNow

/-- A check compares the number of the rows that it counts with the threshold. -/
theorem check_eq_outcome (begins : rule.countedAfter store now = .ok since)
    (nonempty : rule.scope store ≠ []) (ids : Ids) :
    check store ids now rule = rule.outcome store ids now (rule.countedRows store now).length := by
  have some : (rule.scope store).isEmpty = false := by simpa using nonempty
  have count : store.countLogs (rule.query (rule.scope store) since now) =
      (rule.countedRows store now).length := by
    rw [Rule.countedRows_eq begins, selectLogs, countLogs, List.countP_eq_length_filter]
  rw [check, Rule.outcome]
  simp only [some, begins, Except.mapError, ok_bind, count, Bool.false_eq_true, if_false]
  rfl

/-- A rule that fires has found where counting begins. -/
theorem countedAfter_of_due {count : Nat} (due : rule.due store now = .ok (some count)) :
    ∃ since, rule.countedAfter store now = .ok since := by
  unfold Rule.due at due
  split at due
  · cases due
  · obtain ⟨since, begins, -⟩ := bind_eq_ok.1 due
    exact ⟨since, mapError_eq_ok.1 begins⟩

end Alert

namespace Service

open Alert

/-! ## Runs in which logs arrive and the rule is checked -/

/-- Logs arrive, time passes, locks and connections come and go, or a rule is checked: this one, or
one that has another name. -/
def Happening.Ordinary (rule : Rule) (now : Time.Instant) : Happening → Prop
  | .logsArrive _ _ => True
  | .clockSet later => now ≤ later
  | .locksChange _ => True
  | .linkChanges _ => True
  | .ruleChecked checked => checked = rule ∨ checked.id ≠ rule.id
  | _ => False

/-- Nothing else happens in a run. -/
def Watching (rule : Rule) : Service → List Happening → Prop
  | _, [] => True
  | service, step :: rest =>
    step.Ordinary rule service.now ∧ Watching rule (service.after step) rest

/-- The tallies of the firings of a rule in a run. -/
def talliesOf (service : Service) (rule : Rule) (run : List Happening) : List Tally :=
  (service.allTallies run).filter (·.firing.rule.id = rule.id)

/-- At some time in the run a firing of the rule that is stamped no earlier than the log was in the
history, and the log was not yet stored. -/
def Late (service : Service) (rule : Rule) (run : List Happening) (row : LogRow) : Prop :=
  ∃ earlier, earlier <+: run ∧ row ∉ (service.afterAll earlier).store.logs ∧
    rule.Passed (service.afterAll earlier).store row

variable {service : Service} {rule : Rule} {run : List Happening} {step : Happening}
  {row : LogRow}

theorem afterAll_concat (service : Service) (run : List Happening) (step : Happening) :
    service.afterAll (run ++ [step]) = (service.afterAll run).after step := by
  rw [afterAll, List.foldl_append]
  rfl

theorem allTallies_concat (service : Service) (run : List Happening) (step : Happening) :
    service.allTallies (run ++ [step]) =
      service.allTallies run ++ (service.afterAll run).tallies step := by
  induction run generalizing service with
  | nil => simp [allTallies, afterAll]
  | cons first rest ih =>
      rw [List.cons_append, allTallies, allTallies, ih, List.append_assoc]
      rfl

theorem talliesOf_concat (service : Service) (rule : Rule) (run : List Happening)
    (step : Happening) :
    service.talliesOf rule (run ++ [step]) = service.talliesOf rule run ++
      ((service.afterAll run).tallies step).filter (·.firing.rule.id = rule.id) := by
  rw [talliesOf, allTallies_concat, List.filter_append]
  rfl

theorem watching_concat :
    service.Watching rule (run ++ [step]) ↔
      service.Watching rule run ∧ step.Ordinary rule (service.afterAll run).now := by
  induction run generalizing service with
  | nil => simp [Watching, afterAll]
  | cons first rest ih =>
      rw [List.cons_append, Watching, Watching, ih, and_assoc]
      rfl

theorem late_concat :
    service.Late rule (run ++ [step]) row ↔ service.Late rule run row ∨
      row ∉ ((service.afterAll run).after step).store.logs ∧
        rule.Passed ((service.afterAll run).after step).store row := by
  rw [← afterAll_concat]
  constructor
  · rintro ⟨earlier, part, late⟩
    rcases List.prefix_concat_iff.1 part with rfl | part
    · exact .inr late
    · exact .inl ⟨earlier, part, late⟩
  · rintro (⟨earlier, part, late⟩ | late)
    · exact ⟨earlier, part.trans (List.prefix_append _ _), late⟩
    · exact ⟨_, List.prefix_refl _, late⟩

/-- What an ordinary step does: it adds logs, or the rule fires, or nothing of this changes. -/
inductive Effect (rule : Rule) (before after : Service) (tallies : List Tally) : Prop where
  /-- Neither the rule's history nor its scope changes; logs may be added. -/
  | quiet (now : before.now ≤ after.now) (projects : after.store.projects = before.store.projects)
      (logs : before.store.logs <+: after.store.logs)
      (history : ∀ entry, entry.rule = rule.id →
        (entry ∈ after.store.history ↔ entry ∈ before.store.history))
      (none : tallies = [])
  /-- The rule fires now, with the rows that it counts. -/
  | fires (since : Time.Instant) (now : after.now = before.now)
      (projects : after.store.projects = before.store.projects)
      (logs : after.store.logs = before.store.logs)
      (begins : rule.countedAfter before.store before.now = .ok since)
      (entry : HistoryRow) (own : entry.rule = rule.id) (time : entry.time = before.now)
      (history : after.store.history = before.store.history ++ [entry])
      (one : ∃ firing told,
        tallies = [⟨firing, rule.countedRows before.store before.now, told⟩])

/-- What a check of a rule adds, if it fires. -/
theorem ruleChecked_effect {checked : Rule} (allowed : checked = rule ∨ checked.id ≠ rule.id)
    (service : Service) :
    Effect rule service (service.after (.ruleChecked checked))
      ((service.tallies (.ruleChecked checked)).filter (·.firing.rule.id = rule.id)) := by
  rw [after, checkRule, checkRule_eq, tallies, ruleTallies]
  generalize service.locking.after service.link checked.id = behind
  obtain ⟨told, later⟩ := behind
  rcases verdict : checked.verdict service.locking service.store service.now service.link
    with error | _ | count
  · exact .quiet (le_refl _) rfl (List.prefix_refl _) (fun _ _ => Iff.rfl) rfl
  · exact .quiet (le_refl _) rfl (List.prefix_refl _) (fun _ _ => Iff.rfl) rfl
  · have due := Rule.due_of_verdict verdict
    rcases allowed with rfl | other
    · obtain ⟨since, begins⟩ := countedAfter_of_due due
      exact .fires since rfl rfl rfl begins _ rfl rfl rfl
        ⟨_, told, List.filter_cons_of_pos (by simp)⟩
    · refine .quiet (le_refl _) rfl (List.prefix_refl _) (fun entry own => ?_)
        (by simp [ruleTallies, other])
      refine List.mem_append.trans (or_iff_left ?_)
      rintro isNew
      rw [List.mem_singleton.1 isNew] at own
      exact other own

/-- Arriving logs are stored behind the others, and nothing else changes. -/
theorem logsArrive_store (service : Service) (logs : List Value) (project : Option String) :
    (service.after (.logsArrive logs project)).now = service.now ∧
      ∃ rows, (service.after (.logsArrive logs project)).store =
        { service.store with logs := service.store.logs ++ rows } := by
  simp only [after, insertLogs, change]
  split
  · exact ⟨rfl, [], by rw [List.append_nil]⟩
  · rename_i count store ids inserted
    obtain ⟨entries, -, inserted⟩ := bind_eq_ok.1 inserted
    exact ⟨rfl, Store.insertLogs_ok inserted⟩

theorem effect_of_ordinary (allowed : step.Ordinary rule service.now) :
    Effect rule service (service.after step)
      ((service.tallies step).filter (·.firing.rule.id = rule.id)) := by
  cases step with
  | logsArrive logs project =>
      obtain ⟨now, rows, stored⟩ := service.logsArrive_store logs project
      refine .quiet now.ge ?_ ?_ (fun entry own => ?_) rfl
      all_goals rw [stored]
      exact List.prefix_append _ _
  | clockSet later => exact .quiet allowed rfl (List.prefix_refl _) (fun _ _ => Iff.rfl) rfl
  | locksChange locking =>
      exact .quiet (le_refl _) rfl (List.prefix_refl _) (fun _ _ => Iff.rfl) rfl
  | linkChanges link =>
      exact .quiet (le_refl _) rfl (List.prefix_refl _) (fun _ _ => Iff.rfl) rfl
  | ruleChecked checked => exact ruleChecked_effect allowed service
  | projectAdded organization name => exact allowed.elim
  | ruleAdded new => exact allowed.elim
  | historyAdded other count time => exact allowed.elim
  | allChecked => exact allowed.elim

/-! ## The invariant -/

/-- What holds at any time in a run: the firings of the rule are not ahead of now; a log that is
behind one of them was counted, was late, or has left the window; a log that was counted was not
late; and one that was late is behind a firing. -/
structure Settled (service : Service) (rule : Rule) (run : List Happening) : Prop where
  past : ∀ entry ∈ (service.afterAll run).store.history, entry.rule = rule.id →
    entry.time ≤ (service.afterAll run).now
  settled : ∀ row, rule.Concerns (service.afterAll run).store row →
    rule.Passed (service.afterAll run).store row →
      (∃ tally ∈ service.talliesOf rule run, row ∈ tally.rows) ∨ service.Late rule run row ∨
        ¬ rule.InWindow (service.afterAll run).now row
  onTime : ∀ tally ∈ service.talliesOf rule run, ∀ row ∈ tally.rows,
    row ∈ (service.afterAll run).store.logs ∧ ¬ service.Late rule run row
  passed : ∀ row, service.Late rule run row → rule.Passed (service.afterAll run).store row

namespace Settled

theorem start (fresh : ∀ entry ∈ service.store.history, entry.rule ≠ rule.id) :
    service.Settled rule [] := by
  have nonePassed (row : LogRow) : ¬ rule.Passed service.store row :=
    fun ⟨entry, member, own, _⟩ => fresh entry member own
  refine ⟨fun entry member own => absurd own (fresh entry member),
    fun row _ isPassed => absurd isPassed (nonePassed row), nofun, ?_⟩
  rintro row ⟨earlier, part, -, isPassed⟩
  rw [List.prefix_nil.1 part] at isPassed
  exact absurd isPassed (nonePassed row)

variable {service : Service}

theorem quiet (settled : service.Settled rule run)
    (now : (service.afterAll run).now ≤ ((service.afterAll run).after step).now)
    (projects : ((service.afterAll run).after step).store.projects =
      (service.afterAll run).store.projects)
    (logs : (service.afterAll run).store.logs <+: ((service.afterAll run).after step).store.logs)
    (history : ∀ entry, entry.rule = rule.id →
      (entry ∈ ((service.afterAll run).after step).store.history ↔
        entry ∈ (service.afterAll run).store.history))
    (same : service.talliesOf rule (run ++ [step]) = service.talliesOf rule run) :
    service.Settled rule (run ++ [step]) := by
  have passed (row : LogRow) : rule.Passed ((service.afterAll run).after step).store row ↔
      rule.Passed (service.afterAll run).store row := by
    constructor
    · rintro ⟨entry, member, own, covers⟩
      exact ⟨entry, (history entry own).1 member, own, covers⟩
    · rintro ⟨entry, member, own, covers⟩
      exact ⟨entry, (history entry own).2 member, own, covers⟩
  constructor
  · intro entry member own
    rw [afterAll_concat] at member ⊢
    exact (settled.past entry ((history entry own).1 member) own).trans now
  · intro row concerns isPassed
    rw [afterAll_concat] at concerns isPassed ⊢
    rw [passed] at isPassed
    rw [late_concat, same]
    by_cases old : row ∈ (service.afterAll run).store.logs
    · have before : rule.Concerns (service.afterAll run).store row :=
        ⟨old, rule.scope_congr projects ▸ concerns.scope, concerns.level, concerns.service⟩
      rcases settled.settled row before isPassed with counted | late | outside
      · exact .inl counted
      · exact .inr (.inl (.inl late))
      · exact .inr (.inr fun inside => outside (inside.mono now))
    · exact .inr (.inl (.inl ⟨run, List.prefix_refl _, old, isPassed⟩))
  · intro tally member row counted
    rw [same] at member
    obtain ⟨stored, notLate⟩ := settled.onTime tally member row counted
    rw [afterAll_concat, late_concat]
    exact ⟨logs.subset stored, fun late =>
      late.elim notLate fun missing => missing.1 (logs.subset stored)⟩
  · intro row late
    rw [afterAll_concat]
    rcases late_concat.1 late with earlier | missing
    · exact (passed row).2 (settled.passed row earlier)
    · exact missing.2

theorem fires (settled : service.Settled rule run) {since : Time.Instant} {entry : HistoryRow}
    {firing : Firing} {told : Bool}
    (now : ((service.afterAll run).after step).now = (service.afterAll run).now)
    (projects : ((service.afterAll run).after step).store.projects =
      (service.afterAll run).store.projects)
    (logs : ((service.afterAll run).after step).store.logs = (service.afterAll run).store.logs)
    (begins : rule.countedAfter (service.afterAll run).store (service.afterAll run).now = .ok since)
    (own : entry.rule = rule.id) (time : entry.time = (service.afterAll run).now)
    (history : ((service.afterAll run).after step).store.history =
      (service.afterAll run).store.history ++ [entry])
    (more : service.talliesOf rule (run ++ [step]) = service.talliesOf rule run ++
      [⟨firing, rule.countedRows (service.afterAll run).store (service.afterAll run).now, told⟩]) :
    service.Settled rule (run ++ [step]) := by
  have passed (row : LogRow) : rule.Passed ((service.afterAll run).after step).store row ↔
      rule.Passed (service.afterAll run).store row ∨ row.time ≤ (service.afterAll run).now := by
    simp only [Rule.Passed, history, List.mem_append, List.mem_singleton]
    constructor
    · rintro ⟨other, old | rfl, same, covers⟩
      · exact .inl ⟨other, old, same, covers⟩
      · exact .inr (time ▸ covers)
    · rintro (⟨other, old, same, covers⟩ | upToNow)
      · exact ⟨other, .inl old, same, covers⟩
      · exact ⟨entry, .inr rfl, own, time ▸ upToNow⟩
  -- no log becomes late by a firing, since none is stored by it
  have late (row : LogRow) (stored : row ∈ (service.afterAll run).store.logs) :
      service.Late rule (run ++ [step]) row ↔ service.Late rule run row := by
    rw [late_concat, or_iff_left]
    exact fun missing => missing.1 (logs ▸ stored)
  constructor
  · intro other member same
    rw [afterAll_concat, history] at member
    rw [afterAll_concat, now]
    rcases List.mem_append.1 member with old | new
    · exact settled.past other old same
    · rw [List.mem_singleton.1 new, time]
  · intro row concerns isPassed
    rw [afterAll_concat] at concerns isPassed ⊢
    have stored := logs ▸ concerns.stored
    have before : rule.Concerns (service.afterAll run).store row :=
      ⟨stored, rule.scope_congr projects ▸ concerns.scope, concerns.level, concerns.service⟩
    rw [late row stored, more, now]
    by_cases earlier : rule.Passed (service.afterAll run).store row
    · rcases settled.settled row before earlier with ⟨tally, member, counted⟩ | late | outside
      · exact .inl ⟨tally, List.mem_append_left _ member, counted⟩
      · exact .inr (.inl late)
      · exact .inr (.inr outside)
    · by_cases inside : rule.InWindow (service.afterAll run).now row
      · have upToNow := ((passed row).1 isPassed).resolve_left earlier
        have counted := (mem_countedRows_iff begins).2 ⟨⟨before, inside, upToNow⟩, earlier⟩
        exact .inl ⟨_, List.mem_append_right _ (List.mem_singleton_self _), counted⟩
      · exact .inr (.inr inside)
  · intro tally member row counted
    rw [afterAll_concat, logs]
    rw [more] at member
    rcases List.mem_append.1 member with old | new
    · obtain ⟨stored, notLate⟩ := settled.onTime tally old row counted
      exact ⟨stored, mt (late row stored).1 notLate⟩
    · rw [List.mem_singleton.1 new] at counted
      obtain ⟨watched, notPassed⟩ := (mem_countedRows_iff begins).1 counted
      have stored := watched.stored
      exact ⟨stored, fun wasLate => notPassed (settled.passed row ((late row stored).1 wasLate))⟩
  · intro row wasLate
    rw [afterAll_concat, passed]
    rcases late_concat.1 wasLate with earlier | ⟨-, isPassed⟩
    · exact .inl (settled.passed row earlier)
    · exact (passed row).1 isPassed

/-- **One step.** -/
theorem ordinary (settled : service.Settled rule run)
    (allowed : step.Ordinary rule (service.afterAll run).now) :
    service.Settled rule (run ++ [step]) := by
  have tallies := service.talliesOf_concat rule run step
  cases effect_of_ordinary allowed with
  | quiet now projects logs history none =>
      rw [none, List.append_nil] at tallies
      exact settled.quiet now projects logs history tallies
  | fires since now projects logs begins entry own time history one =>
      obtain ⟨firing, told, one⟩ := one
      rw [one] at tallies
      exact settled.fires now projects logs begins own time history tallies

/-- A whole run. -/
theorem of_watching (fresh : ∀ entry ∈ service.store.history, entry.rule ≠ rule.id)
    (watching : service.Watching rule run) : service.Settled rule run := by
  induction run using List.reverseRecOn with
  | nil => exact .start fresh
  | append_singleton run step ih =>
      obtain ⟨before, allowed⟩ := watching_concat.1 watching
      exact (ih before).ordinary allowed

end Settled

/-- **Watched logs are accounted for unless they are late.**  A rule without earlier firings is
checked in a run in which logs arrive in any order.  At each check, a log that the rule watches was
counted by an earlier firing, or is among the rows whose number the check compares with the
threshold, if and only if there was no time at which a firing stamped no earlier than the log was in
the history and the log was not yet stored. -/
theorem counted_iff_not_late {service : Service} {rule : Rule} {run : List Happening}
    (fresh : ∀ entry ∈ service.store.history, entry.rule ≠ rule.id)
    (watching : service.Watching rule run) {since : Time.Instant}
    (begins : rule.countedAfter (service.afterAll run).store (service.afterAll run).now = .ok since)
    {row : LogRow}
    (watched : rule.Watches (service.afterAll run).store (service.afterAll run).now row) :
    let now := (service.afterAll run).now
    let store := (service.afterAll run).store
    (∀ ids, check store ids now rule =
        rule.outcome store ids now (rule.countedRows store now).length) ∧
      (((∃ tally ∈ service.talliesOf rule run, row ∈ tally.rows) ∨
          row ∈ rule.countedRows store now) ↔
        ¬ service.Late rule run row) := by
  intro now store
  have settled := Settled.of_watching fresh watching
  have counts : row ∈ rule.countedRows store now ↔
      rule.Watches store now row ∧ ¬ rule.Passed store row := mem_countedRows_iff begins
  refine ⟨fun ids => ?_, ?_, ?_⟩
  · obtain ⟨project, member, -⟩ := watched.scope
    exact check_eq_outcome begins (List.ne_nil_of_mem member) ids
  · rintro (⟨tally, member, counted⟩ | included) late
    · exact (settled.onTime tally member row counted).2 late
    · exact (counts.1 included).2 (settled.passed row late)
  · intro notLate
    by_cases isPassed : rule.Passed store row
    · rcases settled.settled row watched.toConcerns isPassed with counted | late | outside
      · exact .inl counted
      · exact absurd late notLate
      · exact absurd watched.behindStart outside
    · exact .inr (counts.2 ⟨watched, isPassed⟩)

/-! ## A log that arrives late -/

/-- A rule of one project that fires for any error of the last ten minutes. -/
def anyError : Rule :=
  { name := "errors", levels := ["error"], threshold := 1, window := 10, service := none
    enabled := true, recipients := [], webhook := none, metadata := [], id := "rule"
    organization := "o", project := some "p" }

/-- A service without rows, at the start of 1970. -/
def withoutRows : Service :=
  { now := ⟨0⟩, ids := ⟨"gen", 0⟩, store := .empty, engine := .fresh false 0, link := .sound
    notifications := .empty "notifications" 3 false, batches := .empty "detection" 3 false
    locking := ⟨false, []⟩, scheduler := .idle, ledger := .empty 3600 false, worker := default
    outside := .quiet, lookups := [] }

/-- An error that happened so many seconds later arrives for the project. -/
def errorArrives (seconds : Int) : Happening :=
  .logsArrive [.map [(.text "time", .int seconds), (.text "level", .text "error")]] (some "p")

/-- An error of the first minute is counted when this is over; another one arrives after that. -/
def lateRun : List Happening :=
  [errorArrives 30, .clockSet ⟨60 * Time.second⟩, .ruleChecked anyError, errorArrives 45,
    .clockSet ⟨90 * Time.second⟩]

/-- The row of the error that arrives late. -/
def lateRow : LogRow := ⟨"gen-3", ⟨45 * Time.second⟩, some "p", unknownName, "error"⟩

theorem withoutRows_fresh : ∀ entry ∈ withoutRows.store.history, entry.rule ≠ anyError.id := by
  decide

theorem lateRun_watching : withoutRows.Watching anyError lateRun :=
  ⟨trivial, show (0 : Int) ≤ 60 * Time.second by decide, .inl rfl, trivial,
    show 60 * Time.second ≤ 90 * Time.second by decide, trivial⟩

theorem lateRun_begins :
    anyError.countedAfter (withoutRows.afterAll lateRun).store (withoutRows.afterAll lateRun).now =
      .ok ⟨60 * Time.second⟩ := by
  decide +kernel

theorem lateRow_watched :
    anyError.Watches (withoutRows.afterAll lateRun).store (withoutRows.afterAll lateRun).now
      lateRow :=
  ⟨⟨by decide +kernel, ⟨"p", by decide, rfl⟩, by decide, nofun⟩, by unfold Rule.InWindow; decide,
    by decide⟩

theorem counted_iff_not_late_of_late_row :
    let now := (withoutRows.afterAll lateRun).now
    let store := (withoutRows.afterAll lateRun).store
    (∀ ids, check store ids now anyError =
        anyError.outcome store ids now (anyError.countedRows store now).length) ∧
      (((∃ tally ∈ withoutRows.talliesOf anyError lateRun, lateRow ∈ tally.rows) ∨
          lateRow ∈ anyError.countedRows store now) ↔
        ¬ withoutRows.Late anyError lateRun lateRow) :=
  counted_iff_not_late withoutRows_fresh lateRun_watching lateRun_begins lateRow_watched

/-- **A late log is not accounted for.**  It lies in the window of the next check, was not counted
by the firing before, and is not counted by that check. -/
theorem late_log_not_counted :
    ¬ ∀ (service : Service) (rule : Rule) (run : List Happening),
      (∀ entry ∈ service.store.history, entry.rule ≠ rule.id) → service.Watching rule run →
      ∀ since, rule.countedAfter (service.afterAll run).store (service.afterAll run).now = .ok since →
      ∀ row, rule.Watches (service.afterAll run).store (service.afterAll run).now row →
        (∃ tally ∈ service.talliesOf rule run, row ∈ tally.rows) ∨
          row ∈ rule.countedRows (service.afterAll run).store (service.afterAll run).now := by
  intro all
  have absent : ¬ ((∃ tally ∈ withoutRows.talliesOf anyError lateRun, lateRow ∈ tally.rows) ∨
      lateRow ∈ anyError.countedRows (withoutRows.afterAll lateRun).store
        (withoutRows.afterAll lateRun).now) := by
    decide +kernel
  exact absent (all withoutRows anyError lateRun withoutRows_fresh lateRun_watching _ lateRun_begins _
    lateRow_watched)

end Service

end LogAlert
