/-
# LogAlert.Proofs.Store.Ready -- services whose rules were imported

A rule that is saved need not be valid, but one that is imported is: its row can be built into a rule
again, which has the identifier that stands in the row, and it is known whether its condition is one
(`DetectionRow.Ready`).  So a service whose detection rules were all imported (`Service.OfImports`)
can list and compile its rules at any time.

Two things are preserved by whatever happens to such a service: all its rows are ready, and the
engine recalls rows of the store (`Service.Stocked`).  From them it follows that every batch is
evaluated against rows of the store (`OfImports.evaluates`).
-/
import LogAlert.Proofs.Engine.Recall
import LogAlert.Proofs.Store.Listing

set_option autoImplicit false

namespace LogAlert

/-! ## Rows of imported rules -/

/-- The row can be built into a rule with the identifier of the row, and it is known whether the
condition of the rule is one. -/
def DetectionRow.Ready (row : DetectionRow) : Prop :=
  ∃ rule, row.rule? = .ok (some rule) ∧ rule.id = row.sigmaId ∧ Engine.Decided rule

namespace Sigma

theorem decided_of_warnings {rule : Rule} {lint : List String}
    (linted : warnings rule = .ok lint) : Engine.Decided rule := by
  obtain ⟨ofCondition, read, -⟩ := bind_eq_ok.1 linted
  unfold conditionWarnings at read
  split at read
  · rename_i tree parsed
    exact .inl ⟨tree, parsed⟩
  · rename_i error parsed
    exact .inr ⟨error, parsed⟩
  · cases read

/-- The condition of a rule that was read from a text has been looked at. -/
theorem decided_of_parse {ids ids' : Ids} {text : String} {rule : Rule} {lint : List String}
    (read : parse ids text = (.ok (.rule rule lint), ids')) : Engine.Decided rule := by
  unfold parse at read
  split at read
  · cases read
  · cases read
  · unfold ofDocument at read
    split at read
    · cases read
    · cases read
    · split at read
      · cases read
      · split at read
        · cases read
        · rename_i linted
          cases read
          exact decided_of_warnings linted

end Sigma

namespace Store

variable {before after : Store} {ids : Ids} {request : ImportRequest} {rule : Sigma.Rule}
  {row : DetectionRow}

/-- An import that adds a row has looked at the condition of its rule. -/
theorem Imports.decided {noService : Option String} {outcome : Except StoreError ImportResult}
    {ids' : Ids} (imports : before.Imports ids request after rule row)
    (ended : before.importRule ids noService request = (outcome, after, ids')) :
    Engine.Decided rule := by
  have added : after.detectionRules ≠ before.detectionRules := by
    rw [imports.rows]
    simp
  unfold importRule at ended
  split at ended
  · cases ended
    exact absurd rfl added
  · cases ended
    exact absurd rfl added
  · rename_i rule' lint names read
    obtain ⟨raw, names, loaded, valid, ofRaw⟩ := imports.read
    obtain ⟨raw', names', loaded', valid', ofRaw'⟩ := Sigma.parse_rule read
    cases loaded.symm.trans loaded'
    cases ofRaw.symm.trans ofRaw'
    exact Sigma.decided_of_parse read

/-- **The row of an imported rule is ready.** -/
theorem Imports.ready {noService : Option String} {outcome : Except StoreError ImportResult}
    {ids' : Ids} (imports : before.Imports ids request after rule row)
    (plain : Text.trim ids.stem = ids.stem)
    (ended : before.importRule ids noService request = (outcome, after, ids')) : row.Ready := by
  obtain ⟨raw, names, loaded, valid, read⟩ := imports.read
  have settled : rule.Settled := Sigma.settled_of_ofValue (plain ▸ Text.trimmed_trim _) valid read
  have exact : rule.Exact := Sigma.exact_of_ofValue (Yaml.load_exact loaded) read
  exact ⟨rule.merged, DetectionRow.rule?_of_stores imports.stores settled exact,
    imports.stores.sigmaId.symm, imports.decided ended⟩

theorem importRule_ready (plain : Text.trim ids.stem = ids.stem) (noService : Option String)
    (request : ImportRequest) (ready : ∀ row ∈ before.detectionRules, row.Ready) :
    ∀ row ∈ (before.importRule ids noService request).2.1.detectionRules, row.Ready := by
  rcases importRule_cases (Prod.eta (before.importRule ids noService request)).symm with
    ⟨same, -⟩ | ⟨_, rule, row, -, -, imports⟩
  · rw [same]
    exact ready
  · rw [imports.rows]
    intro other stored
    rcases List.mem_append.1 stored with old | new
    · exact ready other old
    · exact List.mem_singleton.1 new ▸ imports.ready plain (Prod.eta _).symm

/-- Rules of ready rows can be listed and compiled. -/
theorem listed_of_ready {store : Store} (ready : ∀ row ∈ store.detectionRules, row.Ready)
    (scope : Scope) : ∃ rules, (store.activeRules scope >>= Engine.compileAll) = .ok rules := by
  have built : ∀ row ∈ store.activeRows scope, row.Ready :=
    fun row active => ready row (List.mem_filter.1 active).1
  obtain ⟨found, mapped⟩ :=
    mapM_total fun row active => (built row active).imp' some fun _ => And.left
  have listed : store.activeRules scope = .ok found.reduceOption :=
    bind_eq_ok.2 ⟨found, mapped, rfl⟩
  have decided : ∀ rule ∈ found.reduceOption, Engine.Decided rule := by
    intro rule member
    obtain ⟨row, active, own⟩ := mem_activeRules listed member
    obtain ⟨rule', own', -, decided⟩ := built row active
    cases own.symm.trans own'
    exact decided
  exact ⟨_, bind_eq_ok.2 ⟨_, listed, Engine.compileAll_eq decided⟩⟩

end Store

/-! ## What one activity preserves -/

namespace Delivery

variable {store : Store} {ids : Ids} {state : Processing}

/-- What is known of the processing of batches: the engine recalls rows of the store, and no name
that was handed out comes again. -/
structure Processing.Recalls (state : Processing) (store : Store) (ids : Ids) : Prop where
  engine : state.engine.Recalls store
  advances : ids.Advances state.notifying.ids

theorem process_recalls (recalls : state.Recalls store ids) (now : Time.Instant)
    (batch : Engine.Batch) (source : String) (link : Link) :
    (process store now batch source link state).2.2.Recalls store ids :=
  have kept := process_keeps recalls.engine recalls.advances
    (fun _ => Engine.Recalls.listed) batch source link
  ⟨kept.1, kept.2⟩

theorem handle_recalls (recalls : state.Recalls store ids) (now : Time.Instant) (job : Broker.Job)
    (link : Link) : (handle store now job link state).2.2.Recalls store ids :=
  have kept := handle_keeps recalls.engine recalls.advances
    (fun _ => Engine.Recalls.listed) job link
  ⟨kept.1, kept.2⟩

end Delivery

namespace Service

variable {service : Service}

theorem processBatch_recalls (recalls : service.engine.Recalls service.store) (data : Value)
    (source : String) :
    (service.processBatch data source).2.processing.Recalls service.store service.ids := by
  unfold processBatch
  split
  · exact ⟨recalls, .refl _⟩
  · exact Delivery.process_recalls ⟨recalls, .refl _⟩ service.now _ source service.link

theorem consumeBatches_recalls (recalls : service.engine.Recalls service.store) :
    service.consumeBatches.2.processing.Recalls service.store service.ids :=
  Queue.consume_preserves
    (P := fun state : Delivery.Processing => state.Recalls service.store service.ids)
    (fun job link _ recalls => Delivery.handle_recalls recalls service.now job link)
    service.batches service.link service.processing ⟨recalls, .refl _⟩

/-- Names have this stem; all rows are ready, if the stem has no blanks around it; and the engine
recalls rows of the store. -/
structure Stocked (service : Service) (stem : String) : Prop where
  named : service.ids.stem = stem
  ready : Text.trim stem = stem → ∀ row ∈ service.store.detectionRules, row.Ready
  recalls : service.engine.Recalls service.store

namespace Stocked

variable {stem : String}

theorem start (service : Service) : service.withoutRules.Stocked service.ids.stem :=
  ⟨rfl, fun _ _ stored => (nomatch stored), .of_noneKept rfl _⟩

theorem processBatch (stocked : service.Stocked stem) (data : Value) (source : String) :
    (service.processBatch data source).2.Stocked stem := by
  have processed := processBatch_recalls stocked.recalls data source
  have same : (service.processBatch data source).2.store = service.store := by
    unfold Service.processBatch
    split <;> rfl
  exact ⟨processed.advances.stem.trans stocked.named, same ▸ stocked.ready, same ▸ processed.engine⟩

theorem consumeBatches (stocked : service.Stocked stem) : service.consumeBatches.2.Stocked stem :=
  have consumed := consumeBatches_recalls stocked.recalls
  ⟨consumed.advances.stem.trans stocked.named, stocked.ready, consumed.engine⟩

/-- **One activity preserves it**, unless a rule is saved. -/
theorem perform (stocked : service.Stocked stem) (activity : Activity)
    (imported : ∀ raw options, activity ≠ .saves raw options) :
    (service.perform activity).Stocked stem := by
  obtain ⟨named, ready, recalls⟩ := stocked
  cases activity with
  | imports noService request =>
      have gains := Store.importRule_gains service.store service.ids noService request
      refine ⟨gains.advances.stem.trans named, fun plain => ?_,
        recalls.grows gains.detectionRules⟩
      exact Store.importRule_ready (named ▸ plain) noService request (ready plain)
  | saves raw options => exact absurd rfl (imported raw options)
  | evaluates scope data => exact ⟨named, ready, recalls.evaluateLog service.now scope data⟩
  | evaluatesBatch scope logs =>
      exact ⟨named, ready, recalls.evaluateBatch service.now scope logs⟩
  | loads scope => exact ⟨named, ready, recalls.load service.now scope⟩
  | invalidates organization => exact ⟨named, ready, recalls.invalidate organization⟩
  | processes data source => exact processBatch ⟨named, ready, recalls⟩ data source
  | consumes => exact consumeBatches ⟨named, ready, recalls⟩
  | restarts caseSensitive lifetime => exact ⟨named, ready, .of_noneKept rfl _⟩
  | elsewhere others issued => exact ⟨named, ready, recalls.grows (List.prefix_refl _)⟩

/-- A run preserves it. -/
theorem performAll (stocked : service.Stocked stem) (activities : List Activity)
    (imported : ∀ raw options, Activity.saves raw options ∉ activities) :
    (service.performAll activities).Stocked stem := by
  induction activities generalizing service with
  | nil => exact stocked
  | cons activity rest ih =>
      refine ih (stocked.perform activity ?_) ?_
      · rintro raw options rfl
        exact imported raw options List.mem_cons_self
      · exact fun raw options behind => imported raw options (List.mem_cons_of_mem _ behind)

end Stocked

/-- The service has come about from a beginning without rules, and no rule was saved but by an
import. -/
def OfImports (service : Service) : Prop :=
  ∃ (origin : Service) (activities : List Activity),
    (∀ raw options, Activity.saves raw options ∉ activities) ∧
      service = origin.withoutRules.performAll activities

namespace OfImports

theorem reached (ofImports : service.OfImports) : service.Reached := by
  obtain ⟨origin, activities, -, same⟩ := ofImports
  exact ⟨origin, activities, same⟩

theorem stocked (ofImports : service.OfImports) : service.Stocked service.ids.stem := by
  obtain ⟨origin, activities, imported, rfl⟩ := ofImports
  have stocked := (Stocked.start origin).performAll activities imported
  exact stocked.named.symm ▸ stocked

/-- **Every batch is evaluated against rows of the store.** -/
theorem evaluates (ofImports : service.OfImports)
    (plain : Text.trim service.ids.stem = service.ids.stem) (scope : Scope) :
    ∃ rows, service.engine.Evaluates service.now service.store scope rows := by
  have stocked := ofImports.stocked
  exact stocked.recalls.evaluates (Store.listed_of_ready (stocked.ready plain) scope) service.now

end OfImports

end Service

end LogAlert
