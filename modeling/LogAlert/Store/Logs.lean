/-
# LogAlert.Store.Logs -- storing and counting logs

`insertLogs` stores a batch of log entries, all or none of them. `countLogs` counts stored logs in
an interval of time that is open below and closed above, so that intervals that meet at an instant
share no log. A log of the service `unknown` is counted for every service. `countBetween` takes the
ends of the interval as they are given, in whatever zone.
-/
import LogAlert.Store.Basic
import LogAlert.Log.Entry
import LogAlert.Sigma.Applicability
import LogAlert.Json.Print

set_option autoImplicit false

namespace LogAlert.Store

/-- The metadata of an entry can be written into its column. -/
def checkMetadata (entry : LogEntry) : Except StoreError Unit :=
  match Json.print .refused (.map entry.metadata) with
  | .ok _ => .ok ()
  | .error _ => .error .unwritable

/-- The identifier of its own that an entry has, if it has one. What its column takes for a missing
value is no identifier. -/
def ownId (entry : LogEntry) : Except StoreError (Option String) :=
  if entry.id.truthy then do return some (← required (← columnText entry.id)) else .ok none

/-- The row of an entry at a time, with a new identifier if the entry has none. -/
def logRow (ids : Ids) (project : Option String) (entry : LogEntry) (time : Time.Instant) :
    Except StoreError (LogRow × Ids) := do
  checkMetadata entry
  let project ← columnText (entry.projectId.orElse (.ofText? project))
  let _ ← columnText entry.traceId
  let service := if entry.service = "" then unknownName else entry.service
  match ← ownId entry with
  | some id => return (⟨id, time, project, service, entry.level⟩, ids)
  | none =>
    let (id, ids) := ids.fresh
    return (⟨id, time, project, service, entry.level⟩, ids)

/-- The rows of entries at their times. -/
def logRows (project : Option String) :
    List (LogEntry × Time.Instant) → Ids → Except StoreError (List LogRow × Ids)
  | [], ids => .ok ([], ids)
  | (entry, time) :: rest, ids => do
    let (row, ids) ← logRow ids project entry time
    let (rows, ids) ← logRows project rest ids
    return (row :: rows, ids)

/-- Each identifier occurs once. -/
def distinctIds : List LogRow → Bool
  | [] => true
  | row :: rest => rest.all (fun other => other.id ≠ row.id) && distinctIds rest

/-- Store entries; those without a project of their own belong to the given one. The result is the
number of entries. -/
def insertLogs (store : Store) (ids : Ids) (entries : List LogEntry) (project : Option String) :
    Except StoreError (Nat × Store × Ids) := do
  let times ← (entries.mapM fun entry => Time.universal entry.time).mapError .fault
  let (rows, ids) ← logRows project (entries.zip times) ids
  let logs := store.logs ++ rows
  if distinctIds logs then return (rows.length, { store with logs }, ids)
  else throw .integrity

/-- Which logs are counted. -/
structure LogQuery where
  since : Time.Instant
  until? : Option Time.Instant
  levels : List String
  service : Option String
  projects : List String
deriving Repr

/-- The query asks for the row. -/
def LogQuery.admits (query : LogQuery) (row : LogRow) : Bool :=
  decide (query.since < row.time) && query.until?.all (fun last => row.time ≤ last) &&
    query.levels.contains row.level && row.project.any (query.projects.contains ·) &&
    (match Sigma.given query.service with
     | some service => row.service = service || row.service = unknownName
     | none => true)

/-- The stored logs that a query asks for. -/
def selectLogs (store : Store) (query : LogQuery) : List LogRow := store.logs.filter query.admits

/-- The number of stored logs that a query asks for. -/
def countLogs (store : Store) (query : LogQuery) : Nat := store.logs.countP query.admits

/-- No log is counted without levels or without projects. -/
theorem countLogs_eq_zero (store : Store) {query : LogQuery}
    (empty : query.levels.isEmpty || query.projects.isEmpty) : store.countLogs query = 0 := by
  refine List.countP_eq_zero.2 fun row _ admitted => ?_
  simp only [LogQuery.admits, Bool.and_eq_true, List.contains_iff_mem] at admitted
  obtain ⟨⟨⟨-, level⟩, project⟩, -⟩ := admitted
  rcases Bool.or_eq_true_iff.1 empty with none | none
  · rw [List.isEmpty_iff.1 none] at level
    cases level
  · rw [List.isEmpty_iff.1 none] at project
    cases own : row.project <;> rw [own] at project <;> cases project

/-- Count the logs behind a time, up to another one if there is one. Without levels or projects the
times do not matter. -/
def countBetween (store : Store) (since : Time.DateTime) (until? : Option Time.DateTime)
    (levels : List String) (service : Option String) (projects : List String) :
    Except Fault Nat := do
  if levels.isEmpty || projects.isEmpty then return 0
  let first ← Time.universal since
  let last? ← until?.mapM Time.universal
  return store.countLogs ⟨first, last?, levels, service, projects⟩

/-- If both times have a date in universal time, this is the count of the query. -/
theorem countBetween_eq (store : Store) {since : Time.DateTime} {until? : Option Time.DateTime}
    {first : Time.Instant} {last? : Option Time.Instant} (begins : Time.universal since = .ok first)
    (ends : until?.mapM Time.universal = .ok last?) (levels : List String)
    (service : Option String) (projects : List String) :
    store.countBetween since until? levels service projects =
      .ok (store.countLogs ⟨first, last?, levels, service, projects⟩) := by
  unfold countBetween
  split
  · rename_i empty
    rw [store.countLogs_eq_zero empty]
    rfl
  · rw [begins, ends]
    rfl

end LogAlert.Store
