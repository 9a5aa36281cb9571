/-
# LogAlert.Alert.Check -- checking alert rules

A check counts the logs of a rule's scope from the last firing, or from the start of the window if
that is later, up to now. The rule fires when the count reaches its threshold; the firing is written
into the history, so that no log is counted for two firings. Where several checkers share the rules,
each rule is checked under a lock.
-/
import LogAlert.Alert.Firing
import LogAlert.Broker.Link
import LogAlert.Store.Alerts
import LogAlert.Store.Logs

set_option autoImplicit false

namespace LogAlert.Alert

/-- The projects whose logs count for a rule. -/
def Rule.scope (rule : Rule) (store : Store) : List String :=
  match Sigma.given rule.project with
  | some project => [project]
  | none => store.projectIds rule.organization

/-- The instant after which logs count: the last firing or the start of the window. -/
def Rule.countedAfter (rule : Rule) (store : Store) (now : Time.Instant) :
    Except Fault Time.Instant := do
  let start ← now.minutesBefore rule.window
  return match store.lastFiring rule.id with
    | some last => Store.later last start
    | none => start

/-- The logs that count for a rule now. -/
def Rule.query (rule : Rule) (projects : List String) (since now : Time.Instant) :
    Store.LogQuery :=
  ⟨since, some now, rule.levels, rule.service, projects⟩

/-- Check a rule. If it fires, its firing is in the history. -/
def check (store : Store) (ids : Ids) (now : Time.Instant) (rule : Rule) :
    Except StoreError (Option Firing × Store × Ids) := do
  let projects := rule.scope store
  if projects.isEmpty then return (none, store, ids)
  let since ← (rule.countedAfter store now).mapError .fault
  let count := store.countLogs (rule.query projects since now)
  if (count : Int) < rule.threshold then return (none, store, ids)
  let (history, store, ids) ← store.insertHistory ids (some rule.id) count now
  return (some ⟨history, rule, count, now⟩, store, ids)

/-- Why a check of a rule has no result. -/
inductive CheckError where
  /-- The lock could not be asked for. -/
  | down
  /-- The check itself failed. -/
  | store (error : StoreError)
  /-- The lock could not be given back, whatever the check came to. -/
  | unreleased
deriving DecidableEq, Repr

/-- The name of the lock of a rule. -/
def lockName (rule : String) : String := "logward:alert-rule-lock:" ++ rule

/-- How checkers keep out of each other's way. -/
structure Locking where
  /-- Rules are checked under locks. -/
  enabled : Bool
  /-- The locks that other checkers hold, or that were not given back and have not expired yet. -/
  held : List String
deriving DecidableEq, Repr, Inhabited

namespace Locking

/-- Another checker takes the lock of a rule. -/
def hold (locking : Locking) (rule : String) : Locking :=
  if lockName rule ∈ locking.held then locking
  else { locking with held := locking.held ++ [lockName rule] }

/-- Another checker frees the lock of a rule, or the lock expires. -/
def free (locking : Locking) (rule : String) : Locking :=
  { locking with held := locking.held.filter fun name => name ≠ lockName rule }

/-- Ask for the lock of a rule: the rule may be checked, or another checker is at it. -/
def acquire (locking : Locking) (link : Link) (rule : String) :
    Except CheckError Bool × Link :=
  if locking.enabled then
    match link.send with
    | (true, link) => (.ok !(locking.held.contains (lockName rule)), link)
    | (false, link) => (.error .down, link)
  else (.ok true, link)

/-- Give the lock of a rule back; the result says whether this is carried out. Otherwise the lock
stays until it expires. -/
def release (locking : Locking) (link : Link) (rule : String) : Bool × Link × Locking :=
  if locking.enabled then
    match link.unlock with
    | (true, link) => (true, link, locking)
    | (false, link) => (false, link, locking.hold rule)
  else (true, link, locking)

end Locking

/-- The result of a check, which is told only if the lock was given back. -/
def told {α : Type} (released : Bool) (result : Except CheckError α) : Except CheckError α :=
  if released then result else .error .unreleased

/-- Check a rule unless another checker is at it. The lock is given back whether the check succeeds
or not; a firing is in the history by then. -/
def checkRule (locking : Locking) (store : Store) (ids : Ids) (now : Time.Instant) (link : Link)
    (rule : Rule) : Except CheckError (Option Firing) × Store × Ids × Link × Locking :=
  match locking.acquire link rule.id with
  | (.error error, link) => (.error error, store, ids, link, locking)
  | (.ok false, link) => (.ok none, store, ids, link, locking)
  | (.ok true, link) =>
    let checked := check store ids now rule
    let (released, link, locking) := locking.release link rule.id
    match checked with
    | .error error => (told released (.error (.store error)), store, ids, link, locking)
    | .ok (firing, store, ids) => (told released (.ok firing), store, ids, link, locking)

/-- Check rules one after the other. One that cannot be checked is passed over. -/
def checkRules (now : Time.Instant) :
    List Rule → Store → Ids → Link → Locking → List Firing × Store × Ids × Link × Locking
  | [], store, ids, link, locking => ([], store, ids, link, locking)
  | rule :: rest, store, ids, link, locking =>
    match checkRule locking store ids now link rule with
    | (.ok (some firing), store, ids, link, locking) =>
      let (firings, others) := checkRules now rest store ids link locking
      (firing :: firings, others)
    | (_, store, ids, link, locking) => checkRules now rest store ids link locking

/-- Check all enabled rules. -/
def checkAll (locking : Locking) (store : Store) (ids : Ids) (now : Time.Instant) (link : Link) :
    List Firing × Store × Ids × Link × Locking :=
  checkRules now (store.enabledAlertRules none none) store ids link locking

end LogAlert.Alert
