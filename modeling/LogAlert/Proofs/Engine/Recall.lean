/-
# LogAlert.Proofs.Engine.Recall -- which rows a batch is evaluated against

The engine evaluates a batch against rules that it remembers, or that the store lists.  Either way
they are the compiled forms of rows of the store, in their order.  Rows are only added behind others,
so what was listed earlier are the first of the rows that are listed now (`Recalls`): an engine that
has not forgotten may miss the latest rows, but it neither skips a row nor knows one that the store
has not.

`Evaluates` says this of the rows of one scope, and `Recalls.evaluates` that there are such rows
whenever the store can list its rules.
-/
import LogAlert.Proofs.Engine.Matches

set_option autoImplicit false

namespace LogAlert

/-- What is obtained of the members, without those for which there is nothing. -/
theorem reduceOption_of_mapM {ε α β : Type} {f : α → Except ε (Option β)} {xs : List α}
    {found : List (Option β)} (mapped : xs.mapM f = .ok found) :
    found.reduceOption = xs.filterMap fun x => (f x).toOption.join := by
  induction mapM_eq_ok.1 mapped with
  | nil => rfl
  | @cons x option xs found one others ih =>
      rw [List.filterMap_cons, one, ← ih (mapM_eq_ok.2 others)]
      cases option <;> rfl

/-- The rule of the row, if it can be built. -/
def DetectionRow.built? (row : DetectionRow) : Option Sigma.Rule := row.rule?.toOption.join

/-- The compiled rule of the row, if it can be built and its condition can be read. -/
def DetectionRow.compiled? (row : DetectionRow) : Option Engine.CompiledRule :=
  row.built?.bind Engine.compiled?

namespace Store

variable {store before after : Store} {scope : Scope}

/-- The rules that are listed and compiled are those of the active rows, in their order. -/
theorem compiled_of_listed {rules : List Engine.CompiledRule}
    (listed : (store.activeRules scope >>= Engine.compileAll) = .ok rules) :
    rules = (store.activeRows scope).filterMap DetectionRow.compiled? := by
  obtain ⟨documents, built, compiled⟩ := bind_eq_ok.1 listed
  obtain ⟨found, mapped, same⟩ := bind_eq_ok.1 built
  obtain ⟨found', mapped', same'⟩ := bind_eq_ok.1 compiled
  cases same
  cases same'
  rw [reduceOption_of_mapM mapped', reduceOption_of_mapM mapped, List.filterMap_filterMap]
  rfl

/-- Rows that are added behind the others are active behind the others. -/
theorem activeRows_prefix (rows : before.detectionRules <+: after.detectionRules) (scope : Scope) :
    before.activeRows scope <+: after.activeRows scope :=
  rows.filter _

end Store

namespace Engine

/-- What the engine keeps for a scope was compiled from the first of its active rows. -/
def Recalls (engine : Engine) (store : Store) : Prop :=
  ∀ kept ∈ engine.cache, ∃ rows, rows <+: store.activeRows kept.scope ∧
    kept.rules = rows.filterMap DetectionRow.compiled?

variable {engine : Engine} {store : Store} {now : Time.Instant} {scope : Scope}

namespace Recalls

theorem of_noneKept (none : engine.cache = []) (store : Store) : engine.Recalls store :=
  Keeps.of_noneKept none

theorem grows {after : Store} (recalls : engine.Recalls store)
    (rows : store.detectionRules <+: after.detectionRules) : engine.Recalls after := by
  refine Keeps.imp recalls ?_
  rintro kept ⟨first, active, same⟩
  exact ⟨first, active.trans (Store.activeRows_prefix rows kept.scope), same⟩

theorem invalidate (recalls : engine.Recalls store) (organization : Option String) :
    (engine.invalidate organization).Recalls store :=
  Keeps.invalidate recalls organization

/-- What is listed and compiled now is recalled. -/
theorem listed (rules : List CompiledRule)
    (listed : (store.activeRules scope >>= compileAll) = .ok rules) :
    ∃ rows, rows <+: store.activeRows scope ∧ rules = rows.filterMap DetectionRow.compiled? :=
  ⟨store.activeRows scope, List.prefix_refl _, Store.compiled_of_listed listed⟩

theorem load (recalls : engine.Recalls store) (now : Time.Instant) (scope : Scope) :
    (engine.load now store.activeRules scope).2.Recalls store :=
  Keeps.load recalls listed

theorem evaluateBatch (recalls : engine.Recalls store) (now : Time.Instant) (scope : Scope)
    (batch : List Value) :
    (engine.evaluateBatch now store.activeRules scope batch).2.Recalls store :=
  Keeps.evaluateBatch recalls listed batch

theorem evaluateLog (recalls : engine.Recalls store) (now : Time.Instant) (scope : Scope)
    (data : Value) : (engine.evaluateLog now store.activeRules scope data).2.Recalls store :=
  Keeps.evaluateLog recalls listed data

end Recalls

/-- The rows that a batch of the scope is evaluated against now: the first of the active rows, and
all of them unless the engine remembers earlier ones. -/
structure Evaluates (engine : Engine) (now : Time.Instant) (store : Store) (scope : Scope)
    (rows : List DetectionRow) : Prop where
  active : rows <+: store.activeRows scope
  loaded : (engine.load now store.activeRules scope).1 =
    .ok (rows.filterMap DetectionRow.compiled?)
  current : engine.remembered? now scope = none → rows = store.activeRows scope

/-- The rows are rows of the store, and of the organization. -/
theorem Evaluates.stored {rows : List DetectionRow}
    (evaluates : engine.Evaluates now store scope rows) {row : DetectionRow} (member : row ∈ rows) :
    row ∈ store.detectionRules ∧ row.organization = scope.organization := by
  obtain ⟨stored, applies⟩ := List.mem_filter.1 (evaluates.active.subset member)
  simp only [Bool.and_eq_true, decide_eq_true_eq] at applies
  exact ⟨stored, applies.1.1⟩

theorem Evaluates.distinct {rows : List DetectionRow} {ids : Ids}
    (evaluates : engine.Evaluates now store scope rows) (keyed : store.Keyed ids) :
    (rows.map (·.id)).Nodup :=
  keyed.distinct.sublist
    ((evaluates.active.sublist.trans List.filter_sublist).map DetectionRow.id)

/-- **A batch is evaluated against rows of the store**, if the rules of the scope can be listed. -/
theorem Recalls.evaluates (recalls : engine.Recalls store)
    (lists : ∃ rules, (store.activeRules scope >>= compileAll) = .ok rules) (now : Time.Instant) :
    ∃ rows, engine.Evaluates now store scope rows := by
  cases remembered : engine.remembered? now scope with
  | some rules =>
      obtain ⟨kept, found, rfl, -⟩ := remembered?_eq_some.1 remembered
      have means := List.find?_some found
      have ofScope : kept.scope = scope := of_decide_eq_true means
      obtain ⟨rows, active, same⟩ := recalls kept (List.mem_of_find?_eq_some found)
      refine ⟨rows, ofScope ▸ active, ?_, fun none => nomatch remembered.symm.trans none⟩
      rw [Engine.load, remembered, same]
  | none =>
      obtain ⟨rules, listed⟩ := lists
      refine ⟨store.activeRows scope, List.prefix_refl _, ?_, fun _ => rfl⟩
      rw [Engine.load, remembered]
      simp only [listed]
      rw [Store.compiled_of_listed listed]

/-- The results for a batch are the matches of these rows. -/
theorem Evaluates.evaluateBatch {rows : List DetectionRow} {batch : List Value}
    {entries : List LogEntry} (evaluates : engine.Evaluates now store scope rows)
    (coherent : engine.Coherent store) (read : batch.mapM (LogEntry.ofValue now) = .ok entries) :
    (engine.evaluateBatch now store.activeRules scope batch).1 =
      .ok (found engine.caseSensitive now entries (rows.filterMap DetectionRow.built?)) := by
  have loaded := evaluates.loaded
  have sensitive := (load_spec coherent now scope).2.1
  rcases result : engine.load now store.activeRules scope with ⟨outcome, later⟩
  rw [result] at loaded sensitive
  cases loaded
  have compiled : rows.filterMap DetectionRow.compiled? =
      (rows.filterMap DetectionRow.built?).filterMap compiled? := List.filterMap_filterMap.symm
  rw [Engine.evaluateBatch, result, compiled]
  dsimp only
  rw [evaluateAll_eq read, sensitive]

end Engine

end LogAlert
