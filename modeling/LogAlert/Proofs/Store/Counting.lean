/-
# LogAlert.Proofs.Store.Counting -- counting the logs of a batch

A batch of log entries is stored as a whole or not at all.  If each of them can be stored
(`LogEntry.Storable`) and all names of logs stay distinct, then each has a row that holds what is
stored of it (`LogRow.Holds`), and otherwise nothing happens (`Store.insertLogs_ok_iff`).  Whether a
query asks for an entry is said by `LogQuery.wants` without looking at rows; it compares instants, so
the clock on which a time was written has no part in it.

Main statement: storing a batch adds to each count the number of entries that the query asks for, and
a batch that cannot be stored changes nothing (`stored_batch_counted`).
-/
import LogAlert.Service
import LogAlert.Proofs.Store.Growth
import Mathlib.Data.List.Nodup

set_option autoImplicit false

namespace LogAlert

/-! ## What is stored of an entry -/

namespace LogEntry

/-- The project under which an entry is stored: its own, or else the given one. -/
def storedProject (entry : LogEntry) (project : Option String) :
    Except StoreError (Option String) :=
  Store.columnText (entry.projectId.orElse (.ofText? project))

/-- The service under which an entry is stored; one without a name counts as unknown. -/
def storedService (entry : LogEntry) : String :=
  if entry.service = "" then unknownName else entry.service

/-- The entry can be stored: its time has a date in universal time, and all its values can be
written into their columns. -/
structure Storable (entry : LogEntry) (project : Option String) : Prop where
  dated : entry.time.instant.hasDate = true
  metadata : ∃ text, Json.print .refused (.map entry.metadata) = .ok text
  project : ∃ name, entry.storedProject project = .ok name
  trace : ∃ text, Store.columnText entry.traceId = .ok text
  id : ∃ own, Store.ownId entry = .ok own

end LogEntry

/-- The row holds what is stored of the entry. -/
structure LogRow.Holds (row : LogRow) (project : Option String) (entry : LogEntry) : Prop where
  time : row.time = entry.time.instant
  project : entry.storedProject project = .ok row.project
  service : row.service = entry.storedService
  level : row.level = entry.level

/-- The query asks for the entry, which is stored among logs of the given project. -/
def Store.LogQuery.wants (query : LogQuery) (project : Option String) (entry : LogEntry) : Bool :=
  decide (query.since < entry.time.instant) &&
    query.until?.all (fun last => entry.time.instant ≤ last) &&
    query.levels.contains entry.level &&
    (entry.storedProject project).toOption.join.any (query.projects.contains ·) &&
    (Sigma.given query.service).all fun service =>
      entry.storedService = service || entry.storedService = unknownName

namespace Store

/-- A row is counted if its entry is asked for. -/
theorem admits_eq_wants {row : LogRow} {project : Option String} {entry : LogEntry}
    (holds : row.Holds project entry) (query : LogQuery) :
    query.admits row = query.wants project entry := by
  unfold LogQuery.admits LogQuery.wants
  rw [holds.time, holds.level, holds.service, holds.project]
  cases Sigma.given query.service <;> rfl

theorem countP_admits {project : Option String} {entries : List LogEntry} {rows : List LogRow}
    (held : List.Forall₂ (fun entry row => row.Holds project entry) entries rows)
    (query : LogQuery) : rows.countP query.admits = entries.countP (query.wants project) := by
  induction held with
  | nil => rfl
  | cons one others ih => rw [List.countP_cons, List.countP_cons, ih, admits_eq_wants one]

/-! ## Rows of a batch -/

/-- The names of the rows of a batch; entries without an identifier are given new ones. -/
def rowNames : Ids → List LogEntry → List String
  | _, [] => []
  | ids, entry :: rest =>
    match (ownId entry).toOption.join with
    | some id => id :: rowNames ids rest
    | none => ids.fresh.1 :: rowNames ids.fresh.2 rest

theorem checkMetadata_isOk_iff {entry : LogEntry} : (∃ checked, checkMetadata entry = .ok checked) ↔
    ∃ text, Json.print .refused (.map entry.metadata) = .ok text := by
  unfold checkMetadata
  split <;> rename_i printed
  · exact iff_of_true ⟨_, rfl⟩ ⟨_, printed⟩
  · exact iff_of_false nofun fun ⟨_, other⟩ => nomatch printed.symm.trans other

theorem universal_eq_ok {t : Time.DateTime} {time : Time.Instant} :
    Time.universal t = .ok time ↔ time = t.instant ∧ t.instant.hasDate = true := by
  unfold Time.universal
  split
  · rename_i dated
    exact ⟨fun same => ⟨(Except.ok.inj same).symm, dated⟩, fun same => congrArg _ same.1.symm⟩
  · rename_i undated
    exact ⟨nofun, fun same => absurd same.2 undated⟩

section Rows

variable {ids ids' : Ids} {project : Option String} {entry : LogEntry} {time : Time.Instant}

/-- What a row is made of, and under which name. -/
theorem logRow_ok {row : LogRow} (made : logRow ids project entry time = .ok (row, ids')) :
    row.time = time ∧ entry.storedProject project = .ok row.project ∧
      row.service = entry.storedService ∧ row.level = entry.level ∧
      ∃ own, ownId entry = .ok own ∧
        ((own = some row.id ∧ ids' = ids) ∨ (own = none ∧ (row.id, ids') = ids.fresh)) := by
  obtain ⟨-, -, made⟩ := bind_eq_ok.1 made
  obtain ⟨name, named, made⟩ := bind_eq_ok.1 made
  obtain ⟨-, -, made⟩ := bind_eq_ok.1 made
  obtain ⟨own, owned, made⟩ := bind_eq_ok.1 made
  cases own <;> cases made
  · exact ⟨rfl, named, rfl, rfl, none, owned, .inr ⟨rfl, rfl⟩⟩
  · exact ⟨rfl, named, rfl, rfl, _, owned, .inl ⟨rfl, rfl⟩⟩

/-- A row can be made of an entry whose values can be written. -/
theorem logRow_isOk_iff (ids : Ids) (time : Time.Instant) :
    (∃ result, logRow ids project entry time = .ok result) ↔
    (∃ text, Json.print .refused (.map entry.metadata) = .ok text) ∧
      (∃ name, entry.storedProject project = .ok name) ∧
      (∃ text, columnText entry.traceId = .ok text) ∧ ∃ own, ownId entry = .ok own := by
  have last (name : Option String) (own : Option String) : (∃ result, (match own with
      | some id => return (⟨id, time, name, entry.storedService, entry.level⟩, ids)
      | none => return (⟨ids.fresh.1, time, name, entry.storedService, entry.level⟩, ids.fresh.2) :
        Except StoreError (LogRow × Ids)) = .ok result) ↔ True :=
    iff_of_true (by cases own <;> exact ⟨_, rfl⟩) trivial
  refine (bind_isOk_iff fun _ _ => bind_isOk_iff fun name _ => bind_isOk_iff fun _ _ =>
    bind_isOk_iff fun own _ => last name own).trans ?_
  rw [checkMetadata_isOk_iff, and_true]
  rfl

end Rows

section Batch

variable {ids ids' : Ids} {project : Option String} {entries : List LogEntry}
  {times : List Time.Instant} {rows : List LogRow}

/-- Each entry has a row that holds it, under its name. -/
theorem logRows_ok (dated : List.Forall₂ (fun entry time => Time.universal entry.time = .ok time)
      entries times) (made : logRows project (entries.zip times) ids = .ok (rows, ids')) :
    List.Forall₂ (fun entry row => row.Holds project entry) entries rows ∧
      rows.map (·.id) = rowNames ids entries := by
  induction dated generalizing ids rows with
  | nil =>
      cases made
      exact ⟨.nil, rfl⟩
  | @cons entry time entries times one others ih =>
      obtain ⟨⟨row, names⟩, first, made⟩ := bind_eq_ok.1 made
      obtain ⟨⟨rest, last⟩, behind, made⟩ := bind_eq_ok.1 made
      cases made
      obtain ⟨clock, named, service, level, own, owned, name⟩ := logRow_ok first
      obtain ⟨held, names_eq⟩ := ih behind
      refine ⟨.cons ⟨clock.trans (universal_eq_ok.1 one).1, named, service, level⟩ held, ?_⟩
      rw [List.map_cons, names_eq, rowNames, owned]
      rcases name with ⟨rfl, rfl⟩ | ⟨rfl, fresh⟩
      · rfl
      · exact congrArg (fun drawn : String × Ids => drawn.1 :: rowNames drawn.2 entries) fresh

/-- Rows can be made of a batch if one can be made of each entry. -/
theorem logRows_isOk_iff (dated : List.Forall₂ (fun entry time =>
      Time.universal entry.time = .ok time) entries times) (ids : Ids) :
    (∃ result, logRows project (entries.zip times) ids = .ok result) ↔
      ∀ entry ∈ entries, entry.Storable project := by
  induction dated generalizing ids with
  | nil => exact ⟨fun _ => nofun, fun _ => ⟨_, rfl⟩⟩
  | @cons entry time entries times one others ih =>
      rw [List.forall_mem_cons]
      constructor
      · rintro ⟨result, made⟩
        obtain ⟨⟨row, names⟩, first, made⟩ := bind_eq_ok.1 made
        obtain ⟨behind, more, -⟩ := bind_eq_ok.1 made
        obtain ⟨printed, named, traced, owned⟩ := (logRow_isOk_iff ids time).1 ⟨_, first⟩
        exact ⟨⟨(universal_eq_ok.1 one).2, printed, named, traced, owned⟩, (ih names).1 ⟨behind, more⟩⟩
      · rintro ⟨storable, rest⟩
        obtain ⟨⟨row, names⟩, first⟩ := (logRow_isOk_iff ids time).2
          ⟨storable.metadata, storable.project, storable.trace, storable.id⟩
        obtain ⟨⟨rows, last⟩, behind⟩ := (ih names).2 rest
        exact ⟨_, bind_eq_ok.2 ⟨_, first, bind_eq_ok.2 ⟨_, behind, rfl⟩⟩⟩

/-- The times of a batch are known if each of them has a date. -/
theorem times_isOk_iff :
    (∃ times, (entries.mapM fun entry => Time.universal entry.time) = .ok times) ↔
      ∀ entry ∈ entries, entry.time.instant.hasDate = true := by
  simp only [mapM_isOk_iff, universal_eq_ok, exists_eq_left]

end Batch

/-! ## Storing a batch -/

theorem distinctIds_eq_true {rows : List LogRow} :
    distinctIds rows = true ↔ (rows.map (·.id)).Nodup := by
  induction rows with
  | nil => exact ⟨fun _ => List.nodup_nil, fun _ => rfl⟩
  | cons row rest ih =>
      simp only [distinctIds, Bool.and_eq_true, ih, List.all_eq_true, decide_eq_true_eq,
        List.map_cons, List.nodup_cons, List.mem_map, not_exists, not_and]

section Insert

variable {store after : Store} {ids ids' : Ids} {entries : List LogEntry}
  {project : Option String}

/-- Rows that hold the entries are added behind the others. -/
theorem insertLogs_holds {n : Nat}
    (inserted : store.insertLogs ids entries project = .ok (n, after, ids')) :
    n = entries.length ∧ ∃ rows, after = { store with logs := store.logs ++ rows } ∧
      List.Forall₂ (fun entry row => row.Holds project entry) entries rows := by
  obtain ⟨times, dated, inserted⟩ := bind_eq_ok.1 inserted
  obtain ⟨⟨rows, later⟩, made, inserted⟩ := bind_eq_ok.1 inserted
  obtain ⟨held, -⟩ := logRows_ok (mapM_eq_ok.1 (mapError_eq_ok.1 dated)) made
  dsimp only at inserted
  split at inserted
  · cases inserted
    exact ⟨held.length_eq.symm, rows, rfl, held⟩
  · cases inserted

/-- **A batch is stored exactly if each of its entries can be stored and all names are distinct**,
those of its own rows and those of the rows that are stored already. -/
theorem insertLogs_isOk_iff : (∃ result, store.insertLogs ids entries project = .ok result) ↔
    (∀ entry ∈ entries, entry.Storable project) ∧
      (store.logs.map (·.id) ++ rowNames ids entries).Nodup := by
  -- what is known once the times and the rows are
  have whole {times : List Time.Instant} {rows : List LogRow} {later : Ids}
      (dated : (entries.mapM fun entry => Time.universal entry.time) = .ok times)
      (made : logRows project (entries.zip times) ids = .ok (rows, later)) :
      (store.logs.map (·.id) ++ rowNames ids entries).Nodup ↔
        distinctIds (store.logs ++ rows) = true := by
    obtain ⟨-, names⟩ := logRows_ok (mapM_eq_ok.1 dated) made
    rw [distinctIds_eq_true, List.map_append, names]
  constructor
  · rintro ⟨result, inserted⟩
    obtain ⟨times, dated, inserted⟩ := bind_eq_ok.1 inserted
    obtain ⟨⟨rows, later⟩, made, inserted⟩ := bind_eq_ok.1 inserted
    rw [mapError_eq_ok] at dated
    dsimp only at inserted
    split at inserted
    · rename_i distinct
      exact ⟨(logRows_isOk_iff (mapM_eq_ok.1 dated) ids).1 ⟨_, made⟩, (whole dated made).2 distinct⟩
    · cases inserted
  · rintro ⟨storable, distinct⟩
    obtain ⟨times, dated⟩ := times_isOk_iff.2 fun entry member => (storable entry member).dated
    obtain ⟨⟨rows, later⟩, made⟩ :=
      (logRows_isOk_iff (mapM_eq_ok.1 dated) ids).2 storable
    exact ⟨_, bind_eq_ok.2 ⟨times, mapError_eq_ok.2 dated, bind_eq_ok.2 ⟨_, made,
      if_pos ((whole dated made).1 distinct)⟩⟩⟩

/-- A count grows by the number of entries that are asked for. -/
theorem countLogs_insertLogs {n : Nat}
    (inserted : store.insertLogs ids entries project = .ok (n, after, ids')) (query : LogQuery) :
    after.countLogs query = store.countLogs query + entries.countP (query.wants project) := by
  obtain ⟨-, rows, rfl, held⟩ := insertLogs_holds inserted
  rw [countLogs, countLogs, List.countP_append, countP_admits held]

end Insert

end Store

namespace Service

/-- Store entries that have been read; those without a project belong to the given one. -/
def storeLogs (service : Service) (entries : List LogEntry) (project : Option String) :
    Except StoreError Nat × Service :=
  service.change fun store ids => store.insertLogs ids entries project

/-- **A batch is counted as a whole or not at all.**  If it is stored, every count grows by the number
of its entries that the query asks for; if it is not, nothing changes.  It is stored exactly if each
entry can be stored and no name of a log is taken or given twice. -/
theorem stored_batch_counted (service : Service) (entries : List LogEntry)
    (project : Option String) :
    (∀ n, (service.storeLogs entries project).1 = .ok n → n = entries.length ∧
      ∀ query, (service.storeLogs entries project).2.store.countLogs query =
        service.store.countLogs query + entries.countP (query.wants project)) ∧
    (∀ error, (service.storeLogs entries project).1 = .error error →
      (service.storeLogs entries project).2 = service) ∧
    ((∃ n, (service.storeLogs entries project).1 = .ok n) ↔
      (∀ entry ∈ entries, entry.Storable project) ∧
        (service.store.logs.map (·.id) ++ Store.rowNames service.ids entries).Nodup) := by
  rw [← Store.insertLogs_isOk_iff, storeLogs, change]
  cases inserted : service.store.insertLogs service.ids entries project with
  | error e => exact ⟨nofun, fun _ _ => rfl, nofun, nofun⟩
  | ok result =>
      obtain ⟨n, after, ids⟩ := result
      refine ⟨fun m same => ?_, nofun, fun _ => ⟨_, rfl⟩, fun _ => ⟨n, rfl⟩⟩
      cases same
      exact ⟨(Store.insertLogs_holds inserted).1, Store.countLogs_insertLogs inserted⟩

end Service

end LogAlert
