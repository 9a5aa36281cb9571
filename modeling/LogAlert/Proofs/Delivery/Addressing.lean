/-
# LogAlert.Proofs.Delivery.Addressing -- whether the right people are told

`Activity` lists what can happen to the detection rules of a service and to its engine: rules are
imported and saved, logs and batches are evaluated, rules are loaded and forgotten, queued batches
are processed, the engine is replaced, and everything else goes on beside that.  In each state that
such a run reaches, rows can be told apart by their names and the engine keeps rules of the store
only (`Traceable`).

A notification should go to the people of a row that matched the batch (`Service.Matched`).  What
holds, in every reachable state and for every batch, is `notified_row_matched_iff`: a notification
goes to the first row of the organization that has the identifier of a rule that matched, so it is
right exactly if that row is among those that matched; and it is if no other row of the organization
has the identifier.  `other_project_notified` shows that it can be wrong: one text imported for two
projects, and a match in the second one is told to the people of the first.
-/
import LogAlert.Proofs.Broker.Consumer
import LogAlert.Proofs.Delivery.Targets
import LogAlert.Service

set_option autoImplicit false

namespace LogAlert

/-- What can happen to the detection rules of a service, to its engine and around them. -/
inductive Activity where
  | imports (noService : Option String) (request : ImportRequest)
  | saves (raw : Value) (options : Store.RuleOptions)
  | evaluates (scope : Scope) (data : Value)
  | evaluatesBatch (scope : Scope) (logs : List Value)
  | loads (scope : Scope)
  | invalidates (organization : Option String)
  | processes (data : Value) (source : String)
  | consumes
  /-- The engine is replaced by a new one. -/
  | restarts (caseSensitive : Bool) (lifetime : Int)
  /-- The clock, the connection and all other parts become those of the given service; so many names
  are handed out meanwhile. -/
  | elsewhere (others : Service) (issued : Nat)

namespace Service

/-- The service after one thing has happened. -/
def perform (service : Service) : Activity → Service
  | .imports noService request => (service.importRule noService request).2
  | .saves raw options => (service.saveRule raw options).2
  | .evaluates scope data => (service.evaluate scope data).2
  | .evaluatesBatch scope logs => (service.evaluateBatch scope logs).2
  | .loads scope => (service.loadRules scope).2
  | .invalidates organization => { service with engine := service.engine.invalidate organization }
  | .processes data source => (service.processBatch data source).2
  | .consumes => service.consumeBatches.2
  | .restarts caseSensitive lifetime => { service with engine := .fresh caseSensitive lifetime }
  | .elsewhere others issued =>
    { others with
      store.detectionRules := service.store.detectionRules
      engine := service.engine
      ids := { service.ids with issued := service.ids.issued + issued } }

/-- The service after all of this has happened. -/
def performAll (service : Service) (activities : List Activity) : Service :=
  activities.foldl perform service

/-- The service before any detection rule has been stored or loaded. -/
def withoutRules (service : Service) : Service :=
  { service with store.detectionRules := [], engine.cache := [] }

/-- The service has come about in this way, from a beginning without rules. -/
def Reached (service : Service) : Prop :=
  ∃ (origin : Service) (activities : List Activity),
    service = origin.withoutRules.performAll activities

/-- The notifications that are queued when a batch is processed now. -/
def notified (service : Service) (batch : Engine.Batch) (source : String) : List Notification :=
  (Delivery.process service.store service.now batch source service.link
    service.processing).1.toOption.getD []

/-- The row is active for the organization and the project of the batch, its rule has the
identifier, and the rule holds of a log of the batch. -/
def MatchedAs (service : Service) (batch : Engine.Batch) (row : DetectionRow) (id : String) :
    Prop :=
  ∃ scope compiled, batch.scope = .ok scope ∧ row ∈ service.store.activeRows scope ∧
    row.rule? = .ok (some compiled.rule) ∧ compiled.rule.id = id ∧
    Engine.compile compiled.rule = .ok (some compiled) ∧
    compiled.Matches service.engine.caseSensitive service.now batch.logs

/-- The row matched the batch. -/
def Matched (service : Service) (batch : Engine.Batch) (row : DetectionRow) : Prop :=
  ∃ id, service.MatchedAs batch row id

/-- Rows can be told apart by their names, and the engine keeps rules of the store only. -/
structure Traceable (service : Service) : Prop where
  keyed : service.store.Keyed service.ids
  coherent : service.engine.Coherent service.store

end Service

/-- The row has the identifier, or its rule has it. -/
def DetectionRow.Bears (row : DetectionRow) (id : String) : Prop :=
  row.sigmaId = id ∨ row.id = id ∨ ∃ rule, row.rule? = .ok (some rule) ∧ rule.id = id

/-- Not more than one row of the organization has the identifier. -/
def Store.Unambiguous (store : Store) (organization id : String) : Prop :=
  ∀ row ∈ store.detectionRules, ∀ other ∈ store.detectionRules,
    row.organization = organization → other.organization = organization →
      row.Bears id → other.Bears id → row = other

theorem Store.findRule?_bears {store : Store} {organization id : String} {row : DetectionRow}
    (found : store.findRule? organization id = some row) :
    row.organization = organization ∧ row.Bears id := by
  have means := List.find?_some found
  simp only [Bool.and_eq_true, Bool.or_eq_true, decide_eq_true_eq] at means
  obtain ⟨own, bySigma | byName⟩ := means
  · exact ⟨own, .inl bySigma⟩
  · exact ⟨own, .inr (.inl byName)⟩

/-! ## What one activity preserves -/

namespace Service.Traceable

variable {service : Service}

theorem start (service : Service) : service.withoutRules.Traceable :=
  ⟨Store.keyed_of_noRules rfl _, .of_noneKept rfl _⟩

/-- Changes of the store that add at most one detection rule. -/
theorem gains (traceable : service.Traceable) {store : Store} {ids : Ids}
    (gains : Store.Gains service.store service.ids store ids) :
    Traceable { service with store, ids } :=
  ⟨traceable.keyed.gains gains, traceable.coherent.gains gains⟩

/-- Changes of the engine that leave rules of the store in it. -/
theorem ofEngine (traceable : service.Traceable) {engine : Engine}
    (coherent : engine.Coherent service.store) : Traceable { service with engine } :=
  ⟨traceable.keyed, coherent⟩

theorem processing_sound (traceable : service.Traceable) :
    service.processing.Sound service.store service.ids :=
  ⟨traceable.coherent, .refl service.ids⟩

theorem withProcessing (traceable : service.Traceable) (link : Link) {state : Delivery.Processing}
    (sound : state.Sound service.store service.ids) :
    (service.withProcessing link state).Traceable :=
  ⟨traceable.keyed.gains (.nothing sound.advances rfl), sound.coherent⟩

theorem saveRule (traceable : service.Traceable) (raw : Value) (options : Store.RuleOptions) :
    (service.saveRule raw options).2.Traceable := by
  have read := Sigma.Rule.ofValue_advances service.ids raw
  unfold Service.saveRule
  split
  · rename_i result
    rw [result] at read
    exact traceable.gains (.nothing read rfl)
  · rename_i rule ids result
    rw [result] at read
    unfold change
    split
    · exact traceable.gains (.nothing read rfl)
    · rename_i saved
      exact traceable.gains ((Store.saveRule_gains saved).after_advances read)

theorem processBatch (traceable : service.Traceable) (data : Value) (source : String) :
    (service.processBatch data source).2.Traceable := by
  unfold Service.processBatch
  split
  · exact traceable
  · exact traceable.withProcessing _
      (Delivery.process_spec traceable.processing_sound service.now _ source service.link).1

theorem consumeBatches (traceable : service.Traceable) : service.consumeBatches.2.Traceable := by
  have step : ∀ (job : Broker.Job) (link : Link) (state : Delivery.Processing),
      state.Sound service.store service.ids →
        (Delivery.handle service.store service.now job link state).2.2.Sound service.store
          service.ids :=
    fun job link state sound => Delivery.handle_sound sound service.now job link
  have beside (batches : Queue) : Traceable { service with batches } :=
    ⟨traceable.keyed, traceable.coherent⟩
  exact (beside _).withProcessing _
    (Queue.consume_preserves step service.batches service.link service.processing
      traceable.processing_sound)

/-- **One activity preserves traceability.** -/
theorem perform (traceable : service.Traceable) (activity : Activity) :
    (service.perform activity).Traceable := by
  cases activity with
  | imports noService request =>
      exact traceable.gains
        (Store.importRule_gains service.store service.ids noService request)
  | saves raw options => exact traceable.saveRule raw options
  | evaluates scope data =>
      exact traceable.ofEngine
        (Engine.evaluateLog_spec traceable.coherent service.now scope data)
  | evaluatesBatch scope logs =>
      exact traceable.ofEngine
        (Engine.evaluateBatch_spec traceable.coherent service.now scope logs).1
  | loads scope =>
      exact traceable.ofEngine (Engine.load_spec traceable.coherent service.now scope).1
  | invalidates organization =>
      exact traceable.ofEngine (traceable.coherent.invalidate organization)
  | processes data source => exact traceable.processBatch data source
  | consumes => exact traceable.consumeBatches
  | restarts caseSensitive lifetime => exact traceable.ofEngine (.of_noneKept rfl _)
  | elsewhere others issued =>
      have advances : service.ids.Advances
          { service.ids with issued := service.ids.issued + issued } :=
        ⟨rfl, Nat.le_add_right _ _⟩
      have gains : Store.Gains service.store service.ids
          { others.store with detectionRules := service.store.detectionRules }
          { service.ids with issued := service.ids.issued + issued } :=
        .nothing advances rfl
      exact ⟨traceable.keyed.gains gains, traceable.coherent.gains gains⟩

/-- A run preserves it. -/
theorem performAll (traceable : service.Traceable) (activities : List Activity) :
    (service.performAll activities).Traceable := by
  induction activities generalizing service with
  | nil => exact traceable
  | cons activity rest ih => exact ih (traceable.perform activity)

end Service.Traceable

/-! ## Whom a batch notifies -/

namespace Service

variable {service : Service} {batch : Engine.Batch}

theorem MatchedAs.row_bears {row : DetectionRow} {id : String}
    (matched : service.MatchedAs batch row id) :
    row ∈ service.store.detectionRules ∧ row.organization = batch.organization ∧ row.Bears id := by
  obtain ⟨scope, compiled, named, active, holds, same, -, -⟩ := matched
  obtain ⟨stored, applies⟩ := List.mem_filter.1 active
  simp only [Bool.and_eq_true, decide_eq_true_eq] at applies
  exact ⟨stored, applies.1.1.trans (Engine.Batch.organization_of_scope named),
    .inr (.inr ⟨compiled.rule, holds, same⟩)⟩

/-- A notification is for the row found under the identifier of a rule that matched. -/
theorem Traceable.notified_found (traceable : service.Traceable) {source : String}
    {n : Notification} (queued : n ∈ service.notified batch source) :
    ∃ id found, service.store.findRule? batch.organization id = some found ∧ n.IsFor found ∧
      ∃ row, service.MatchedAs batch row id := by
  obtain ⟨-, notifies⟩ :=
    Delivery.process_spec traceable.processing_sound service.now batch source service.link
  unfold notified at queued
  cases ended : (Delivery.process service.store service.now batch source service.link
      service.processing).1 with
  | error fault =>
      rw [ended] at queued
      cases queued
  | ok all =>
      rw [ended] at queued
      obtain ⟨scope, compiled, named, ⟨row, active, holds, compiles⟩, matches', found, search, isFor⟩ :=
        notifies all ended n queued
      exact ⟨compiled.rule.id, found, search, isFor, row, scope, compiled, named, active, holds,
        rfl, compiles, matches'⟩

theorem Reached.traceable (reached : service.Reached) : service.Traceable := by
  obtain ⟨origin, activities, rfl⟩ := reached
  exact (Traceable.start origin).performAll activities

/-- **A notification goes to the first row of the organization with the identifier of a rule that
matched.** It is for a row that matched exactly if that first row did, and certainly if the
identifier is that of one row only. -/
theorem notified_row_matched_iff {service : Service} (reached : service.Reached)
    (batch : Engine.Batch) (source : String) (n : Notification)
    (queued : n ∈ service.notified batch source) :
    ∃ id found, service.store.findRule? batch.organization id = some found ∧ n.IsFor found ∧
      (∃ row, service.MatchedAs batch row id) ∧
      ((∃ row, service.Matched batch row ∧ n.IsFor row) ↔ service.Matched batch found) ∧
      (service.store.Unambiguous batch.organization id → service.Matched batch found) := by
  have traceable := reached.traceable
  obtain ⟨id, found, search, isFor, row, matched⟩ := traceable.notified_found queued
  have stored := Store.findRule?_mem search
  refine ⟨id, found, search, isFor, ⟨row, matched⟩, ⟨?_, ?_⟩, ?_⟩
  · rintro ⟨other, ⟨id', matched'⟩, isFor'⟩
    have same : other = found :=
      traceable.keyed.eq_of_id matched'.row_bears.1 stored (isFor'.ruleId.symm.trans isFor.ruleId)
    exact ⟨id', same ▸ matched'⟩
  · exact fun right => ⟨found, right, isFor⟩
  · intro unambiguous
    obtain ⟨stored', own, bears⟩ := matched.row_bears
    obtain ⟨own', bears'⟩ := Store.findRule?_bears search
    exact ⟨id, unambiguous row stored' found stored own own' bears bears' ▸ matched⟩

/-! ## One rule in two projects -/

/-- A rule text is imported for a project, with one address to be told. -/
def importFor (project address : String) : Activity :=
  .imports none
    { text := "title: T\nid: r\nlogsource: \x7b\x7d\ndetection:\n  kw: [psexec]\n  condition: kw\n"
      organization := some "o", project := some project, recipients := [address], webhook := none
      wantsAlertRule := false }

/-- The text is imported for two projects, first for the other one. -/
def twoProjects : Service :=
  let origin : Service :=
    { now := ⟨0⟩, ids := ⟨"gen", 0⟩, store := .empty, engine := .fresh false 0, link := .sound
      notifications := .empty "notifications" 3 false, batches := .empty "detection" 3 false
      locking := ⟨false, []⟩, scheduler := .idle, ledger := .empty 3600 false, worker := default
      outside := .quiet, lookups := [] }
  origin.withoutRules.performAll [importFor "other" "other@x.y", importFor "own" "own@x.y"]

/-- A log of the second project, which the rule matches. -/
def ownBatch : Engine.Batch :=
  ⟨"o", .text "own", [.map [(.text "message", .text "psexec")]]⟩

theorem twoProjects_reached : twoProjects.Reached := ⟨_, _, rfl⟩

theorem twoProjects_notified :
    (∃ n ∈ twoProjects.notified ownBatch "job", n.ruleId = "gen-1") ∧
      ∀ row ∈ twoProjects.store.activeRows ⟨"o", some "own"⟩, row.id ≠ "gen-1" := by
  decide +kernel

theorem notified_row_matched_iff_two_projects : ∃ n ∈ twoProjects.notified ownBatch "job",
    ∃ id found, twoProjects.store.findRule? "o" id = some found ∧ n.IsFor found ∧
      (∃ row, twoProjects.MatchedAs ownBatch row id) ∧
      ((∃ row, twoProjects.Matched ownBatch row ∧ n.IsFor row) ↔
        twoProjects.Matched ownBatch found) ∧
      (twoProjects.store.Unambiguous "o" id → twoProjects.Matched ownBatch found) := by
  obtain ⟨⟨n, queued, -⟩, -⟩ := twoProjects_notified
  exact ⟨n, queued, notified_row_matched_iff twoProjects_reached ownBatch "job" n queued⟩

/-- **A match can be told to the people of another project.** -/
theorem other_project_notified :
    ¬ ∀ service : Service, service.Reached → ∀ (batch : Engine.Batch) (source : String),
      ∀ n ∈ service.notified batch source, ∃ row, service.Matched batch row ∧ n.IsFor row := by
  intro right
  obtain ⟨⟨n, queued, named⟩, others⟩ := twoProjects_notified
  obtain ⟨row, ⟨id, scope, compiled, ofScope, active, -⟩, isFor⟩ :=
    right twoProjects twoProjects_reached ownBatch "job" n queued
  cases ofScope
  exact others row active (isFor.ruleId.symm.trans named)

end Service

end LogAlert
