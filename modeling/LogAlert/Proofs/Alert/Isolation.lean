/-
# LogAlert.Proofs.Alert.Isolation -- what a check of an alert rule depends on, and what it changes

A rule sees its own firings, the projects of its organization if it has no project of its own, and
the logs of the projects in its scope (`Rule.SeesSame`).  What a check of the rule comes to depends
on these only (`Rule.due_congr`), not on other organizations, projects, logs and rules, and not on
the order of rows either; and the check writes one row if the rule fires, and nothing otherwise.

Main statement: `checkRule_isolated`, for checks under locks as well.  Under a lock the result of the
check is told only if the lock could be given back; the row of a firing is written in any case.
-/
import LogAlert.Proofs.Alert.Checking

set_option autoImplicit false

namespace LogAlert

open List

namespace Store

/-- The last firing of a rule is the latest instant among its firings. -/
theorem lastFiring_eq_some_iff {store : Store} {rule : String} {last : Time.Instant} :
    store.lastFiring rule = some last ↔
      (∃ row ∈ store.firingsOf rule, row.time = last) ∧
        ∀ row ∈ store.firingsOf rule, row.time ≤ last := by
  have isOwn {row : HistoryRow} : row ∈ store.firingsOf rule ↔
      row ∈ store.history ∧ row.rule = rule := by
    simp [firingsOf]
  have bound {row : HistoryRow} (own : row ∈ store.firingsOf rule) :
      ∃ latest, store.lastFiring rule = some latest ∧ row.time ≤ latest := by
    obtain ⟨stored, rfl⟩ := isOwn.1 own
    exact time_le_lastFiring stored
  constructor
  · intro found
    obtain ⟨row, stored, own, stamped⟩ := mem_history_of_lastFiring found
    refine ⟨⟨row, isOwn.2 ⟨stored, own⟩, stamped⟩, fun other isOther => ?_⟩
    obtain ⟨latest, found', upTo⟩ := bound isOther
    rw [found, Option.some.injEq] at found'
    exact found' ▸ upTo
  · rintro ⟨⟨row, own, rfl⟩, upper⟩
    obtain ⟨latest, found, upTo⟩ := bound own
    obtain ⟨other, stored, isOther, rfl⟩ := mem_history_of_lastFiring found
    rw [found, le_antisymm (upper other (isOwn.2 ⟨stored, isOther⟩)) upTo]

/-- The last firing does not depend on the order of the firings. -/
theorem lastFiring_congr {one other : Store} {rule : String}
    (same : one.firingsOf rule ~ other.firingsOf rule) :
    one.lastFiring rule = other.lastFiring rule := by
  apply Option.ext
  intro last
  rw [lastFiring_eq_some_iff, lastFiring_eq_some_iff]
  simp only [same.mem_iff]

end Store

namespace Alert

variable {one other : Store} {now : Time.Instant} {rule : Rule}

/-! ## What it depends on -/

/-- The logs of the projects in the rule's scope. -/
def Rule.scopedLogs (rule : Rule) (store : Store) : List LogRow :=
  store.logs.filter fun row => row.project.any (rule.scope store).contains

/-- The rule sees the same in both stores, up to the order of rows: its own firings, the projects of
its organization if it is not about one project, and the logs of its scope. -/
structure Rule.SeesSame (rule : Rule) (one other : Store) : Prop where
  firings : one.firingsOf rule.id ~ other.firingsOf rule.id
  projects : Sigma.given rule.project = none → ∀ project,
    project ∈ one.projectIds rule.organization ↔ project ∈ other.projectIds rule.organization
  logs : rule.scopedLogs one ~ rule.scopedLogs other

namespace Rule.SeesSame

theorem refl (rule : Rule) (store : Store) : rule.SeesSame store store :=
  ⟨.refl _, fun _ _ => Iff.rfl, .refl _⟩

theorem mem_scope (sees : rule.SeesSame one other) (project : String) :
    project ∈ rule.scope one ↔ project ∈ rule.scope other := by
  unfold Rule.scope
  cases own : Sigma.given rule.project with
  | some name => exact Iff.rfl
  | none => exact sees.projects own project

theorem contains_scope (sees : rule.SeesSame one other) :
    (rule.scope one).contains = (rule.scope other).contains := by
  funext project
  rw [Bool.eq_iff_iff, contains_iff_mem, contains_iff_mem]
  exact sees.mem_scope project

theorem countedAfter (sees : rule.SeesSame one other) (now : Time.Instant) :
    rule.countedAfter one now = rule.countedAfter other now := by
  unfold Rule.countedAfter
  rw [Store.lastFiring_congr sees.firings]

/-- Only logs of the scope are counted. -/
theorem countLogs_query (rule : Rule) (store : Store) (since now : Time.Instant) :
    store.countLogs (rule.query (rule.scope store) since now) =
      (rule.scopedLogs store).countP (rule.query (rule.scope store) since now).admits := by
  rw [Rule.scopedLogs, countP_filter, Store.countLogs]
  refine countP_congr fun row _ => ?_
  simp only [Bool.and_eq_true, iff_self_and, Store.LogQuery.admits, Rule.query]
  exact fun admitted => admitted.1.2

theorem countLogs (sees : rule.SeesSame one other) (since now : Time.Instant) :
    one.countLogs (rule.query (rule.scope one) since now) =
      other.countLogs (rule.query (rule.scope other) since now) := by
  rw [countLogs_query, countLogs_query, sees.logs.countP_eq]
  refine countP_congr fun row _ => ?_
  simp only [Store.LogQuery.admits, Rule.query, sees.contains_scope]
  exact Iff.rfl

end Rule.SeesSame

/-- **What a check comes to depends on what the rule sees.** -/
theorem Rule.due_congr (sees : rule.SeesSame one other) (now : Time.Instant) :
    rule.due one now = rule.due other now := by
  have empty : (rule.scope one).isEmpty = (rule.scope other).isEmpty := by
    rw [Bool.eq_iff_iff, List.isEmpty_iff, List.isEmpty_iff, eq_nil_iff_forall_not_mem,
      eq_nil_iff_forall_not_mem]
    simp only [sees.mem_scope]
  unfold Rule.due
  simp only [empty, sees.countedAfter now, sees.countLogs]

/-- The lock of a rule has nothing to do with the store. -/
theorem Rule.verdict_congr (sees : rule.SeesSame one other) (locking : Locking)
    (now : Time.Instant) (link : Link) :
    rule.verdict locking one now link = rule.verdict locking other now link := by
  unfold Rule.verdict
  rw [Rule.due_congr sees now]

/-- The firing without the name of its row. -/
def Firing.unnamed (firing : Firing) : Firing := { firing with history := "" }

/-- **A check is blind to what the rule does not see, and writes at most the row of its firing.**
For stores in which the rule sees the same, and whatever else they hold: a check of the rule, under
a lock or not, fires in both with the same number of logs, or in neither, or fails in both for the
same reason.  If it fires, one row for the rule with this number and the present time is added to
the history, and otherwise nothing is changed.  The firing is reported, unless the lock of the rule
could not be given back after the row was written; without locks, and if no release is lost, it
always is. -/
theorem checkRule_isolated (sees : rule.SeesSame one other) (locking : Locking)
    (now : Time.Instant) (link : Link) (ids others : Ids) :
    let here := checkRule locking one ids now link rule
    let there := checkRule locking other others now link rule
    here.1.map (Option.map Firing.unnamed) = there.1.map (Option.map Firing.unnamed) ∧
      here.2.2.2 = there.2.2.2 ∧
      ((∃ count,
          (here.1 = .ok (some ⟨ids.fresh.1, rule, count, now⟩) ∨ here.1 = .error .unreleased) ∧
          here.2.1 = { one with
            history := one.history ++ [⟨ids.fresh.1, rule.id, now, count, false, none⟩] } ∧
          there.2.1 = { other with
            history := other.history ++ [⟨others.fresh.1, rule.id, now, count, false, none⟩] }) ∨
        (∀ firing, here.1 ≠ .ok (some firing)) ∧ here.2.1 = one ∧ there.2.1 = other) ∧
      (locking.Releases link → here.1 ≠ .error .unreleased) := by
  have honest (releases : locking.Releases link) := releases.told rule.id
  have checked := rule.verdict_ne_unreleased locking other now link
  simp only [checkRule_eq, Rule.verdict_congr sees]
  generalize locking.after link rule.id = behind at honest ⊢
  generalize rule.verdict locking other now link = verdict at checked ⊢
  obtain ⟨released, later⟩ := behind
  cases released with
  | false =>
      have lost (releases : locking.Releases link) : False := Bool.false_ne_true (honest releases)
      rcases verdict with error | _ | count
      · exact ⟨rfl, rfl, .inr ⟨nofun, rfl, rfl⟩, fun releases => (lost releases).elim⟩
      · exact ⟨rfl, rfl, .inr ⟨nofun, rfl, rfl⟩, fun releases => (lost releases).elim⟩
      · exact ⟨rfl, rfl, .inl ⟨count, .inr rfl, rfl, rfl⟩, fun releases => (lost releases).elim⟩
  | true =>
      rcases verdict with error | _ | count
      · exact ⟨rfl, rfl, .inr ⟨nofun, rfl, rfl⟩,
          fun _ same => checked (congrArg _ (Except.error.inj same))⟩
      · exact ⟨rfl, rfl, .inr ⟨nofun, rfl, rfl⟩, fun _ => nofun⟩
      · exact ⟨rfl, rfl, .inl ⟨count, .inl rfl, rfl, rfl⟩, fun _ => nofun⟩

/-! ## A second tenant -/

/-- A rule of an organization that fires for any error of the last ten minutes. -/
def anyErrorOfAll : Rule :=
  { name := "errors", levels := ["error"], threshold := 1, window := 10, service := some "web"
    enabled := true, recipients := [], webhook := none, metadata := [], id := "rule"
    organization := "o", project := none }

/-- An error that happened half a minute after the start of 1970. -/
def errorOf (id : String) (project : Option String) : LogRow :=
  ⟨id, ⟨30 * Time.second⟩, project, unknownName, "error"⟩

/-- One project of the organization, and an error in it. -/
def oneTenant : Store :=
  { Store.empty with
    projects := [⟨"p", "o", "shop"⟩], logs := [errorOf "l" (some "p")]
    alertRules := [anyErrorOfAll] }

/-- The same, among the rows of another organization and an error without a project. -/
def twoTenants : Store :=
  { oneTenant with
    projects := [⟨"q", "x", "desk"⟩, ⟨"p", "o", "shop"⟩]
    logs := [errorOf "k" (some "q"), errorOf "l" (some "p"), errorOf "m" none]
    alertRules := [{ anyErrorOfAll with id := "other", organization := "x" }, anyErrorOfAll]
    history := [⟨"h", "other", ⟨40 * Time.second⟩, 1, true, none⟩] }

theorem seesSame_twoTenants : anyErrorOfAll.SeesSame oneTenant twoTenants :=
  ⟨by decide, fun _ project => by
    rw [show oneTenant.projectIds anyErrorOfAll.organization =
      twoTenants.projectIds anyErrorOfAll.organization by decide], by decide⟩

/-- With the second tenant, the rule fires with the one error of its own organization. -/
theorem checkRule_isolated_two_tenants :
    anyErrorOfAll.SeesSame oneTenant twoTenants ∧
      (checkRule ⟨true, []⟩ twoTenants ⟨"gen", 7⟩ ⟨60 * Time.second⟩ .sound anyErrorOfAll).1.map
          (Option.map Firing.unnamed) =
        .ok (some ⟨"", anyErrorOfAll, 1, ⟨60 * Time.second⟩⟩) :=
  ⟨seesSame_twoTenants,
    (checkRule_isolated seesSame_twoTenants ⟨true, []⟩ ⟨60 * Time.second⟩ .sound ⟨"gen", 0⟩
      ⟨"gen", 7⟩).1.symm.trans rfl⟩

end Alert

end LogAlert
