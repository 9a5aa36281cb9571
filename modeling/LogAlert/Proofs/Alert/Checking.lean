/-
# LogAlert.Proofs.Alert.Checking -- what one check of an alert rule does

A check looks at the stored logs of an interval: it begins no earlier than any firing in the rule's
history (`time_le_countedAfter`) and ends now.  `Rule.countedRows` lists the rows in it that count,
which lie behind all earlier firings, and not ahead of now (`time_of_mem_countedRows`).

A check of a rule comes to one of three things: the rule does not fire, it fires with a number of
logs, or the check fails.  Which of them it is can be computed from the store and the clock alone
(`Rule.due`), and the check then writes at most one row (`check_eq`).  Under a lock a rule may not be
checked at all (`Rule.verdict`), and what a check came to is told only if the lock could be given
back (`Locking.after`); the row is written in any case (`checkRule_eq`).
-/
import LogAlert.Alert.Check
import LogAlert.Proofs.Store.Growth
import LogAlert.Proofs.Time.Order

set_option autoImplicit false

namespace LogAlert

namespace Store

theorem later_eq_max (a b : Time.Instant) : later a b = max a b := by
  rw [max_def]
  rfl

theorem le_foldl_later (times : List Time.Instant) (first : Time.Instant) :
    first ≤ times.foldl later first ∧ ∀ time ∈ times, time ≤ times.foldl later first := by
  induction times generalizing first with
  | nil => exact ⟨le_refl first, fun _ impossible => nomatch impossible⟩
  | cons time rest ih =>
      obtain ⟨bound, restBound⟩ := ih (later first time)
      rw [later_eq_max] at bound
      refine ⟨(le_max_left first time).trans bound, fun other member => ?_⟩
      rcases List.mem_cons.1 member with rfl | inRest
      · exact (le_max_right first other).trans bound
      · exact restBound other inRest

/-- The last firing of a rule is no earlier than any firing of the rule. -/
theorem time_le_lastFiring {store : Store} {row : HistoryRow} (member : row ∈ store.history) :
    ∃ last, store.lastFiring row.rule = some last ∧ row.time ≤ last := by
  have own : row ∈ store.firingsOf row.rule := List.mem_filter.2 ⟨member, by simp⟩
  have stamped : row.time ∈ (store.firingsOf row.rule).map (·.time) := List.mem_map_of_mem own
  unfold lastFiring
  cases times : (store.firingsOf row.rule).map (·.time) with
  | nil => rw [times] at stamped; cases stamped
  | cons first rest =>
      rw [times] at stamped
      obtain ⟨bound, restBound⟩ := le_foldl_later rest first
      refine ⟨_, rfl, ?_⟩
      rcases List.mem_cons.1 stamped with same | inRest
      · exact same ▸ bound
      · exact restBound _ inRest

/-- The later of several instants is one of them. -/
theorem foldl_later_mem (times : List Time.Instant) (first : Time.Instant) :
    times.foldl later first ∈ first :: times := by
  induction times generalizing first with
  | nil => exact List.mem_singleton_self first
  | cons time rest ih =>
      have member := ih (later first time)
      rw [List.foldl_cons]
      rcases List.mem_cons.1 member with same | inRest
      · rw [same, later]
        split
        · exact List.mem_cons_of_mem _ List.mem_cons_self
        · exact List.mem_cons_self
      · exact List.mem_cons_of_mem _ (List.mem_cons_of_mem _ inRest)

/-- The last firing of a rule is one of its firings. -/
theorem mem_history_of_lastFiring {store : Store} {rule : String} {last : Time.Instant}
    (found : store.lastFiring rule = some last) :
    ∃ entry ∈ store.history, entry.rule = rule ∧ entry.time = last := by
  have stamped : last ∈ (store.firingsOf rule).map (·.time) := by
    rw [lastFiring] at found
    split at found
    · cases found
    · rename_i first rest times
      cases found
      rw [times]
      exact foldl_later_mem rest first
  obtain ⟨entry, own, rfl⟩ := List.mem_map.1 stamped
  obtain ⟨stored, same⟩ := List.mem_filter.1 own
  exact ⟨entry, stored, of_decide_eq_true same, rfl⟩

/-- A query admits rows of its interval only, which is open below and closed above. -/
theorem LogQuery.time_of_admits {query : LogQuery} {row : LogRow} (admitted : query.admits row) :
    query.since < row.time ∧ ∀ last, query.until? = some last → row.time ≤ last := by
  simp only [LogQuery.admits, Bool.and_eq_true, decide_eq_true_eq, Option.all_eq_true] at admitted
  obtain ⟨⟨⟨⟨behind, upTo⟩, -⟩, -⟩, -⟩ := admitted
  exact ⟨behind, upTo⟩

end Store

namespace Alert

variable {store : Store} {now since : Time.Instant} {rule : Rule}

/-- Counting begins no earlier than any firing of the rule. -/
theorem time_le_countedAfter (begins : rule.countedAfter store now = .ok since)
    {row : HistoryRow} (member : row ∈ store.history) (own : row.rule = rule.id) :
    row.time ≤ since := by
  obtain ⟨start, -, begins⟩ := bind_eq_ok.1 begins
  obtain ⟨last, found, bound⟩ := Store.time_le_lastFiring member
  rw [own] at found
  simp only [found] at begins
  cases begins
  rw [Store.later_eq_max]
  exact bound.trans (le_max_left last start)

/-- The rows that a check of the rule counts. -/
def Rule.countedRows (rule : Rule) (store : Store) (now : Time.Instant) : List LogRow :=
  match rule.countedAfter store now with
  | .ok since => store.selectLogs (rule.query (rule.scope store) since now)
  | .error _ => []

theorem Rule.countedRows_eq (begins : rule.countedAfter store now = .ok since) :
    rule.countedRows store now = store.selectLogs (rule.query (rule.scope store) since now) := by
  simp only [Rule.countedRows, begins]

/-- The counted rows are a selection of the stored ones. -/
theorem Rule.countedRows_eq_filter (rule : Rule) (store : Store) (now : Time.Instant) :
    ∃ p, rule.countedRows store now = store.logs.filter p := by
  unfold Rule.countedRows
  split
  · exact ⟨_, rfl⟩
  · exact ⟨fun _ => false, by simp⟩

/-- Counted rows are stamped behind all earlier firings of the rule, and not ahead of now. -/
theorem time_of_mem_countedRows {row : LogRow} (counted : row ∈ rule.countedRows store now) :
    row.time ≤ now ∧ ∀ entry ∈ store.history, entry.rule = rule.id → entry.time < row.time := by
  unfold Rule.countedRows at counted
  split at counted
  · rename_i since begins
    obtain ⟨behind, upTo⟩ := Store.LogQuery.time_of_admits (List.mem_filter.1 counted).2
    exact ⟨upTo now rfl, fun entry member own =>
      (time_le_countedAfter begins member own).trans_lt behind⟩
  · cases counted

/-- The row that the firing of a rule adds to the history. -/
def Rule.firingRow (rule : Rule) (id : String) (count : Nat) (now : Time.Instant) : HistoryRow :=
  ⟨id, rule.id, now, count, false, none⟩

/-! ## What a check comes to -/

/-- With how many logs the rule fires, if it does. -/
def Rule.due (rule : Rule) (store : Store) (now : Time.Instant) :
    Except StoreError (Option Nat) := do
  if (rule.scope store).isEmpty then return none
  let since ← (rule.countedAfter store now).mapError .fault
  let count := store.countLogs (rule.query (rule.scope store) since now)
  if (count : Int) < rule.threshold then return none
  let _ ← Store.number count
  return some count

/-- The store with a firing of the rule behind all others. -/
def Rule.recorded (rule : Rule) (store : Store) (id : String) (count : Nat) (now : Time.Instant) :
    Store :=
  { store with history := store.history ++ [rule.firingRow id count now] }

/-- A firing is written if its number of logs fits the column. -/
theorem insertHistory_firing (rule : Rule) (store : Store) (ids : Ids) (count : Nat)
    (now : Time.Instant) :
    store.insertHistory ids (some rule.id) count now =
      (Store.number count).map fun _ =>
        (ids.fresh.1, rule.recorded store ids.fresh.1 count now, ids.fresh.2) := by
  rw [Store.insertHistory, show Store.required (some rule.id) = .ok rule.id from rfl, ok_bind]
  cases fits : Store.number (count : Int) with
  | error error => rfl
  | ok number =>
      obtain ⟨rfl, -⟩ := Store.number_eq_ok.1 fits
      rfl

/-- A check writes a row for what it comes to, and has no other effect. -/
theorem check_eq (store : Store) (ids : Ids) (now : Time.Instant) (rule : Rule) :
    check store ids now rule = (rule.due store now).map fun
      | none => (none, store, ids)
      | some count =>
        (some ⟨ids.fresh.1, rule, count, now⟩, rule.recorded store ids.fresh.1 count now,
          ids.fresh.2) := by
  unfold check Rule.due
  by_cases empty : (rule.scope store).isEmpty = true
  · simp only [empty, if_true]
    rfl
  simp only [empty, Bool.false_eq_true, if_false]
  cases (rule.countedAfter store now).mapError StoreError.fault with
  | error error => rfl
  | ok since =>
      rw [ok_bind, ok_bind]
      generalize store.countLogs (rule.query (rule.scope store) since now) = count
      by_cases few : (count : Int) < rule.threshold
      · simp only [few, if_true]
        rfl
      · simp only [few, if_false, insertHistory_firing]
        cases Store.number (count : Int) with
        | error error => rfl
        | ok number => rfl

/-- A rule that fires does so with the number of counted rows, which reaches its threshold. -/
theorem Rule.due_eq_some {count : Nat} (fires : rule.due store now = .ok (some count)) :
    count = (rule.countedRows store now).length ∧ rule.threshold ≤ count := by
  unfold Rule.due at fires
  split at fires
  · cases fires
  · obtain ⟨since, begins, fires⟩ := bind_eq_ok.1 fires
    dsimp only at fires
    split at fires
    · cases fires
    · rename_i enough
      obtain ⟨number, -, fires⟩ := bind_eq_ok.1 fires
      cases fires
      rw [Rule.countedRows_eq (mapError_eq_ok.1 begins), Store.selectLogs,
        ← List.countP_eq_length_filter]
      exact ⟨rfl, not_lt.1 enough⟩

/-- The row of the history that a firing is written into. -/
def Firing.row (firing : Firing) : HistoryRow :=
  firing.rule.firingRow firing.history firing.count firing.time

/-! ## Checks under locks -/

/-- With how many logs the rule fires, if it is checked at all. -/
def Rule.verdict (rule : Rule) (locking : Locking) (store : Store) (now : Time.Instant)
    (link : Link) : Except CheckError (Option Nat) :=
  match (locking.acquire link rule.id).1 with
  | .error error => .error error
  | .ok false => .ok none
  | .ok true => (rule.due store now).mapError .store

theorem Rule.due_of_verdict {locking : Locking} {link : Link} {count : Nat}
    (verdict : rule.verdict locking store now link = .ok (some count)) :
    rule.due store now = .ok (some count) := by
  unfold Rule.verdict at verdict
  split at verdict
  · cases verdict
  · cases verdict
  · exact mapError_eq_ok.1 verdict

/-- Whether the result of a check is told, and the connection and the locks behind the check. -/
def Locking.after (locking : Locking) (link : Link) (rule : String) : Bool × Link × Locking :=
  match locking.acquire link rule with
  | (.ok true, link) => locking.release link rule
  | (_, link) => (true, link, locking)

/-- **A check under a lock** writes a row for what it comes to, and has no other effect on the store.
What it comes to is told only if the lock could be given back. -/
theorem checkRule_eq (locking : Locking) (store : Store) (ids : Ids) (now : Time.Instant)
    (link : Link) (rule : Rule) :
    checkRule locking store ids now link rule =
      match rule.verdict locking store now link with
      | .error error =>
        (told (locking.after link rule.id).1 (.error error), store, ids,
          (locking.after link rule.id).2)
      | .ok none =>
        (told (locking.after link rule.id).1 (.ok none), store, ids,
          (locking.after link rule.id).2)
      | .ok (some count) =>
        (told (locking.after link rule.id).1 (.ok (some ⟨ids.fresh.1, rule, count, now⟩)),
          rule.recorded store ids.fresh.1 count now, ids.fresh.2,
          (locking.after link rule.id).2) := by
  unfold checkRule Rule.verdict Locking.after
  rcases locking.acquire link rule.id with ⟨acquired, later⟩
  cases acquired with
  | error error => rfl
  | ok free =>
      cases free with
      | false => rfl
      | true =>
          simp only [check_eq]
          rcases rule.due store now with error | _ | count <;> rfl

/-- A check itself does not fail for the lock that has to be given back. -/
theorem Rule.verdict_ne_unreleased (rule : Rule) (locking : Locking) (store : Store)
    (now : Time.Instant) (link : Link) :
    rule.verdict locking store now link ≠ .error .unreleased := by
  unfold Rule.verdict Locking.acquire
  intro same
  split at same
  · rename_i failed
    split at failed
    · split at failed <;> cases failed
      cases same
    · cases failed
  · cases same
  · cases due : rule.due store now <;> rw [due] at same <;> cases same

namespace Locking

variable {locking : Locking} {link : Link}

/-- No release of a lock is lost, or there are no locks. -/
def Releases (locking : Locking) (link : Link) : Prop :=
  locking.enabled = true → ∀ lost ∈ link.releases, lost = false

/-- Asking for a lock leaves the fates of releases alone. -/
theorem acquire_releases (locking : Locking) (link : Link) (rule : String) :
    (locking.acquire link rule).2.releases = link.releases := by
  unfold acquire
  split
  · rw [← link.send_releases]
    rcases link.send with ⟨_ | _, later⟩ <;> rfl
  · rfl

/-- If no release is lost, results are told, and no lock is left behind. -/
theorem Releases.after_eq (releases : locking.Releases link) (rule : String) :
    ∃ later, locking.after link rule = (true, later, locking) ∧ locking.Releases later := by
  unfold after
  rcases asked : locking.acquire link rule with ⟨acquired, later⟩
  have kept : locking.Releases later := by
    have fates := locking.acquire_releases link rule
    rw [asked] at fates
    rw [Releases, fates]
    exact releases
  rcases acquired with error | _ | _
  · exact ⟨later, rfl, kept⟩
  · exact ⟨later, rfl, kept⟩
  · dsimp only
    unfold release
    split
    · rename_i enabled
      unfold Link.unlock
      cases next : later.releases with
      | nil => exact ⟨later, rfl, kept⟩
      | cons lost rest =>
          obtain ⟨rfl, others⟩ := List.forall_mem_cons.1 (next ▸ kept enabled)
          exact ⟨{ later with releases := rest }, rfl, fun _ => others⟩
    · exact ⟨later, rfl, kept⟩

theorem Releases.told (releases : locking.Releases link) (rule : String) :
    (locking.after link rule).1 = true := by
  obtain ⟨later, same, -⟩ := releases.after_eq rule
  rw [same]

/-- Without locks nothing is sent. -/
theorem acquire_disabled (disabled : locking.enabled = false) (link : Link) (rule : String) :
    locking.acquire link rule = (.ok true, link) := by
  rw [acquire, disabled]
  rfl

theorem after_disabled (disabled : locking.enabled = false) (link : Link) (rule : String) :
    locking.after link rule = (true, link, locking) := by
  simp only [after, acquire_disabled disabled, release, disabled]
  rfl

end Locking

/-! ## Checking several rules -/

/-- The first rule of a pass adds the row of its firing, if it fires, and the firing is among those
of the pass if it is told. -/
theorem checkRules_cons (locking : Locking) (now : Time.Instant) (rule : Rule) (rest : List Rule)
    (store : Store) (ids : Ids) (link : Link) :
    checkRules now (rule :: rest) store ids link locking =
      match rule.verdict locking store now link with
      | .ok (some count) =>
        let others := checkRules now rest (rule.recorded store ids.fresh.1 count now) ids.fresh.2
          (locking.after link rule.id).2.1 (locking.after link rule.id).2.2
        (if (locking.after link rule.id).1 then
            ⟨ids.fresh.1, rule, count, now⟩ :: others.1
          else others.1, others.2)
      | _ =>
        checkRules now rest store ids (locking.after link rule.id).2.1
          (locking.after link rule.id).2.2 := by
  rw [checkRules, checkRule_eq]
  rcases locking.after link rule.id with ⟨released, later⟩
  rcases rule.verdict locking store now link with error | _ | count <;> cases released <;> rfl

end Alert

end LogAlert
