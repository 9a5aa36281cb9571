/-
# LogAlert.Proofs.Alert.Watched -- the logs that a converted alert rule counts

A detection rule that restricts nothing but the service (`LogSource.OnlyService`) is about the logs
whose service fits its pattern, without regard to case, and about those of an unknown service.  The
alert rule that is made of it counts logs by another comparison: the pattern is taken for the name of
a service, and must be the name under which the log is stored, letter by letter.

Main statement: `counted_iff_named`, for every such rule and every log that is stored.
`capitals_not_counted` shows a log that the detection rule is about and that no count includes.
-/
import LogAlert.Proofs.Alert.Conversion
import LogAlert.Proofs.Store.Counting

set_option autoImplicit false

namespace LogAlert

namespace Sigma.LogSource

/-- The log source restricts the service, and neither the product nor the category. -/
structure OnlyService (source : LogSource) (pattern : String) : Prop where
  service : given source.service = some pattern
  product : given source.product = none
  category : given source.category = none

variable {source : LogSource} {pattern : String}

theorem admits_of_given {pattern? : Option String} (restricted : given pattern? = some pattern)
    (name : String) : admits pattern? name = true ↔ Text.lower name = unknownName ∨
      Pattern.matchesValue false (Text.lower pattern) (Text.lower name) = true := by
  simp [admits, restricted]

theorem admits_of_not_given {pattern? : Option String} (free : given pattern? = none)
    (name : String) : admits pattern? name = true := by
  simp [admits, free]

/-- A log source of a service includes the logs whose service fits it, if their product and their
category can be compared at all. -/
theorem covers_iff (only : source.OnlyService pattern) (entry : LogEntry) :
    source.covers entry = .ok true ↔
      (∃ product, (entry.described "product").coerce = .ok product) ∧
      (∃ category, ((entry.described "category").orElse (.text entry.service)).coerce =
        .ok category) ∧
      (Text.lower entry.service = unknownName ∨
        Pattern.matchesValue false (Text.lower pattern) (Text.lower entry.service) = true) := by
  have restricts : source.isEmpty = false := by simp [isEmpty, only.service]
  rw [covers, restricts, if_neg Bool.false_ne_true, ← admits_of_given only.service]
  simp only [bind_eq_ok, admits_of_not_given only.product, admits_of_not_given only.category,
    Bool.and_true, pure, Except.pure, Except.ok.injEq]
  constructor
  · rintro ⟨product, hasProduct, category, hasCategory, fits⟩
    exact ⟨⟨product, hasProduct⟩, ⟨category, hasCategory⟩, fits⟩
  · rintro ⟨⟨product, hasProduct⟩, ⟨category, hasCategory⟩, fits⟩
    exact ⟨product, hasProduct, category, hasCategory, fits⟩

/-- The alert rule asks for the pattern. -/
theorem given_serviceOf (only : source.OnlyService pattern) :
    given (Alert.serviceOf source) = some pattern := by
  have specific : source.category.any (· ∈ Alert.genericCategories) = false := by
    have free := only.category
    cases known : source.category with
    | none => rfl
    | some category =>
        rw [known, given, Option.filter_eq_none_iff] at free
        have isEmpty : category = "" := by simpa using free
        rw [isEmpty]
        decide
  rw [Alert.serviceOf, specific, if_neg Bool.false_ne_true, only.service, Option.some_or]
  exact Option.filter_eq_some_iff.2 ⟨rfl, (Option.filter_eq_some_iff.1 only.service).2⟩

end Sigma.LogSource

namespace Alert

variable {rule : Sigma.Rule} {recipients : List String} {webhook : Option String} {draft : Draft}

/-- The stored service is the one that is asked for or unknown. -/
theorem storedService_iff {entry : LogEntry} {service : String} :
    (entry.storedService = service ∨ entry.storedService = unknownName) ↔
      entry.service = service ∨ entry.service = "" ∨ entry.service = unknownName := by
  unfold LogEntry.storedService
  split
  · rename_i nameless
    simp [nameless]
  · rename_i hasName
    simp [hasName]

/-- The query asks for what the alert rule looks at, in projects and an interval to which the row
belongs. -/
structure Draft.Asks (draft : Draft) (query : Store.LogQuery) (row : LogRow) : Prop where
  levels : query.levels = draft.levels
  service : query.service = draft.service
  scope : ∃ project ∈ query.projects, row.project = some project
  since : query.since < row.time
  last : ∀ last, query.until? = some last → row.time ≤ last

variable {query : Store.LogQuery} {row : LogRow}

/-- A row is asked for if its level is listed and its service is the one that is asked for. -/
theorem admits_iff_of_asks (asks : draft.Asks query row) (listed : row.level ∈ draft.levels)
    {service : String} (watched : Sigma.given draft.service = some service) :
    query.admits row = true ↔ row.service = service ∨ row.service = unknownName := by
  obtain ⟨name, inScope, ofProject⟩ := asks.scope
  have ends : query.until?.all (row.time ≤ ·) = true := by
    rw [Option.all_eq_true]
    exact fun last given => decide_eq_true (asks.last last given)
  simp [Store.LogQuery.admits, asks.since, ends, asks.levels, listed, ofProject, inScope,
    asks.service, watched]

variable {pattern : String} {store after : Store} {ids ids' : Ids} {entries : List LogEntry}
  {entry : LogEntry} {project : Option String} {stored : Nat}

/-- **Which logs of a detection rule its alert rule counts.**  The detection rule restricts only the
service.  It is about a log if the service of this fits its pattern or is unknown, case apart, and
its product and category can be compared at all.  The row of a stored log of any of the usual levels
is counted by the queries of the alert rule, over every interval and all projects to which the row
belongs, if and only if its service is the pattern itself, letter by letter, or the log names no
service, or names it `unknown`. -/
theorem counted_iff_named (only : rule.logsource.OnlyService pattern)
    (converted : (convert none rule recipients webhook).draft? = some draft)
    (inserted : store.insertLogs ids entries project = .ok (stored, after, ids'))
    (member : entry ∈ entries) (listed : entry.level ∈ allLevels) :
    (rule.logsource.covers entry = .ok true ↔
      (∃ product, (entry.described "product").coerce = .ok product) ∧
      (∃ category, ((entry.described "category").orElse (.text entry.service)).coerce =
        .ok category) ∧
      (Text.lower entry.service = unknownName ∨
        Pattern.matchesValue false (Text.lower pattern) (Text.lower entry.service) = true)) ∧
    ∃ rows, after.logs = store.logs ++ rows ∧ ∃ row ∈ rows, row.Holds project entry ∧
      ∀ query, draft.Asks query row →
        after.countLogs query = (after.selectLogs query).length ∧
        (row ∈ after.selectLogs query ↔
          entry.service = pattern ∨ entry.service = "" ∨ entry.service = unknownName) := by
  refine ⟨Sigma.LogSource.covers_iff only entry, ?_⟩
  obtain ⟨-, rows, rfl, held⟩ := Store.insertLogs_holds inserted
  obtain ⟨row, isNew, holds⟩ := exists_of_forall₂ held.flip member
  obtain ⟨⟨threshold, window, -, rfl⟩, -⟩ := convert_draft converted
  refine ⟨rows, rfl, row, isNew, holds, fun query asks => ⟨List.countP_eq_length_filter, ?_⟩⟩
  have kept : row ∈ store.logs ++ rows := List.mem_append_right _ isNew
  rw [Store.selectLogs, List.mem_filter, and_iff_right kept,
    admits_iff_of_asks asks (holds.level ▸ listed) (Sigma.LogSource.given_serviceOf only),
    holds.service, storedService_iff]

/-! ## A service in capital letters -/

/-- A rule about the logs of the service `SSHD`. -/
def aboutSshd : Sigma.Rule where
  title := "T"
  id := "r"
  logsource := ⟨none, some "SSHD", none, none⟩
  detection := ⟨"kw", [("kw", .keywords ["x"])], none⟩
  level := .text "medium"
  status := .text "stable"
  tags := []
  author := none
  description := none
  date := none
  references := []
  falsepositives := []

/-- A log of this service, as it is usually written, of the first minute of 1970. -/
def fromSshd : LogEntry where
  time := ⟨⟨1970, 1, 1⟩, 0, 0, 30, 0, some 0⟩
  service := "sshd"
  level := "info"
  message := "x"
  metadata := []
  traceId := .null
  projectId := .null
  id := .text "l"
  extra := []

/-- The store that holds this log only, in the project `p`. -/
def sshdStored : Store :=
  { Store.empty with logs := [⟨"l", ⟨30 * Time.second⟩, some "p", "sshd", "info"⟩] }

theorem onlyService_aboutSshd : aboutSshd.logsource.OnlyService "SSHD" :=
  ⟨by decide, rfl, rfl⟩

theorem insertLogs_fromSshd : Store.empty.insertLogs ⟨"gen", 0⟩ [fromSshd] (some "p") =
    .ok (1, sshdStored, ⟨"gen", 0⟩) :=
  rfl

theorem converted_aboutSshd : ∃ draft, (convert none aboutSshd [] none).draft? = some draft :=
  Option.isSome_iff_exists.1 (by decide +kernel)

theorem counted_iff_named_of_sshd : ∃ draft,
    (convert none aboutSshd [] none).draft? = some draft ∧
    (aboutSshd.logsource.covers fromSshd = .ok true ↔
      (∃ product, (fromSshd.described "product").coerce = .ok product) ∧
      (∃ category, ((fromSshd.described "category").orElse (.text fromSshd.service)).coerce =
        .ok category) ∧
      (Text.lower fromSshd.service = unknownName ∨
        Pattern.matchesValue false (Text.lower "SSHD") (Text.lower fromSshd.service) = true)) ∧
    ∃ rows, sshdStored.logs = Store.empty.logs ++ rows ∧
      ∃ row ∈ rows, row.Holds (some "p") fromSshd ∧ ∀ query, draft.Asks query row →
        sshdStored.countLogs query = (sshdStored.selectLogs query).length ∧
        (row ∈ sshdStored.selectLogs query ↔
          fromSshd.service = "SSHD" ∨ fromSshd.service = "" ∨ fromSshd.service = unknownName) := by
  obtain ⟨draft, converted⟩ := converted_aboutSshd
  exact ⟨draft, converted, counted_iff_named onlyService_aboutSshd converted insertLogs_fromSshd
    (List.mem_singleton.2 rfl) (by decide)⟩

/-- A log that the detection rule is about need not be counted by its alert rule. -/
theorem capitals_not_counted :
    aboutSshd.logsource.OnlyService "SSHD" ∧
      aboutSshd.logsource.covers fromSshd = .ok true ∧ fromSshd.level ∈ allLevels ∧
      Store.empty.insertLogs ⟨"gen", 0⟩ [fromSshd] (some "p") = .ok (1, sshdStored, ⟨"gen", 0⟩) ∧
      ∃ draft, (convert none aboutSshd [] none).draft? = some draft ∧
        sshdStored.countLogs ⟨⟨0⟩, none, draft.levels, draft.service, ["p"]⟩ = 0 := by
  refine ⟨onlyService_aboutSshd, by decide +kernel, by decide, insertLogs_fromSshd, ?_⟩
  obtain ⟨draft, converted⟩ := converted_aboutSshd
  refine ⟨draft, converted, ?_⟩
  obtain ⟨⟨threshold, window, -, rfl⟩, -⟩ := convert_draft converted
  show sshdStored.countLogs ⟨⟨0⟩, none, allLevels, serviceOf aboutSshd.logsource, ["p"]⟩ = 0
  decide +kernel

end Alert

end LogAlert
