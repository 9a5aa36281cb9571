/-
# LogAlert.Proofs.Engine.Matches -- the engine finds rules of the store

What the engine reports for a batch is traced back to the store: each match is of a rule that an
active row of the scope holds (`Store.Offers`), and that rule holds of one of the logs
(`CompiledRule.Matches`).  Rules may come from the engine's memory rather than from the store, so
this needs the invariant that all rules kept are rules of the store (`Coherent`).  It holds in the
beginning, every operation of the engine preserves it, and so does a store that gains rules.
-/
import LogAlert.Engine.Batch
import LogAlert.Proofs.Engine.Memory
import LogAlert.Proofs.Store.Rules
import Mathlib.Data.List.ReduceOption

set_option autoImplicit false

namespace LogAlert

/-- The compiled rule is that of an active row of the scope. -/
def Store.Offers (store : Store) (scope : Scope) (compiled : Engine.CompiledRule) : Prop :=
  ∃ row ∈ store.activeRows scope, row.rule? = .ok (some compiled.rule) ∧
    Engine.compile compiled.rule = .ok (some compiled)

theorem Store.Offers.gains {before after : Store} {ids ids' : Ids} {scope : Scope}
    {compiled : Engine.CompiledRule} (offers : before.Offers scope compiled)
    (gains : Store.Gains before ids after ids') : after.Offers scope compiled := by
  obtain ⟨row, active, holds, compiles⟩ := offers
  exact ⟨row, gains.activeRows active, holds, compiles⟩

theorem Store.mem_activeRules {store : Store} {scope : Scope} {rules : List Sigma.Rule}
    (listed : store.activeRules scope = .ok rules) {rule : Sigma.Rule} (member : rule ∈ rules) :
    ∃ row ∈ store.activeRows scope, row.rule? = .ok (some rule) := by
  obtain ⟨found, mapped, same⟩ := bind_eq_ok.1 listed
  cases same
  exact mem_of_mapM_eq_ok mapped (List.reduceOption_mem_iff.1 member)

namespace Engine

/-- The rule holds of one of the logs, read at the given time. -/
def CompiledRule.Matches (compiled : CompiledRule) (caseSensitive : Bool) (now : Time.Instant)
    (logs : List Value) : Prop :=
  ∃ data ∈ logs, ∃ entry, LogEntry.ofValue now data = .ok entry ∧
    compiled.holds caseSensitive entry entry.fields = .ok true

/-- The rules that are kept are rules of the store. -/
def Coherent (engine : Engine) (store : Store) : Prop :=
  ∀ kept ∈ engine.cache, ∀ compiled ∈ kept.rules, store.Offers kept.scope compiled

/-! ## Compiling -/

theorem rule_of_compile_eq_ok {rule : Sigma.Rule} {compiled : CompiledRule}
    (compiles : compile rule = .ok (some compiled)) : compiled.rule = rule := by
  unfold compile at compiles
  split at compiles
  · cases compiles
    rfl
  · cases compiles
  · cases compiles

theorem mem_compileAll {rules : List Sigma.Rule} {all : List CompiledRule}
    (compiles : compileAll rules = .ok all) {compiled : CompiledRule} (member : compiled ∈ all) :
    ∃ rule ∈ rules, compile rule = .ok (some compiled) := by
  obtain ⟨found, mapped, same⟩ := bind_eq_ok.1 compiles
  cases same
  exact mem_of_mapM_eq_ok mapped (List.reduceOption_mem_iff.1 member)

/-- What is compiled from the active rules is offered by the store. -/
theorem offers_of_compileAll {store : Store} {scope : Scope} {all : List CompiledRule}
    (compiles : (store.activeRules scope >>= compileAll) = .ok all) {compiled : CompiledRule}
    (member : compiled ∈ all) : store.Offers scope compiled := by
  obtain ⟨rules, listed, compiles⟩ := bind_eq_ok.1 compiles
  obtain ⟨rule, ofList, compiles⟩ := mem_compileAll compiles member
  obtain ⟨row, active, holds⟩ := Store.mem_activeRules listed ofList
  cases rule_of_compile_eq_ok compiles
  exact ⟨row, active, holds, compiles⟩

/-! ## Memory -/

variable {engine : Engine} {store : Store} {now : Time.Instant} {scope : Scope}

namespace Coherent

theorem of_noneKept (none : engine.cache = []) (store : Store) : engine.Coherent store :=
  Keeps.of_noneKept none

theorem gains {after : Store} {ids ids' : Ids} (coherent : engine.Coherent store)
    (gains : Store.Gains store ids after ids') : engine.Coherent after :=
  Keeps.imp coherent fun _ offered compiled ofKept => (offered compiled ofKept).gains gains

theorem invalidate (coherent : engine.Coherent store) (organization : Option String) :
    (engine.invalidate organization).Coherent store :=
  Keeps.invalidate coherent organization

end Coherent

theorem offers_of_remembered? {rules : List CompiledRule} (coherent : engine.Coherent store)
    (kept : engine.remembered? now scope = some rules) {compiled : CompiledRule}
    (member : compiled ∈ rules) : store.Offers scope compiled := by
  unfold remembered? at kept
  split at kept
  · split at kept
    · rename_i found search
      have ofScope := List.find?_some search
      split at kept
      · cases kept
        exact of_decide_eq_true ofScope ▸
          coherent found (List.mem_of_find?_eq_some search) compiled member
      · cases kept
    · cases kept
  · cases kept

theorem caseSensitive_remember (engine : Engine) (now : Time.Instant) (scope : Scope)
    (rules : List CompiledRule) :
    (engine.remember now scope rules).caseSensitive = engine.caseSensitive := by
  unfold remember
  split <;> rfl

/-! ## Loading and evaluating -/

/-- What loading rules leaves behind, and what it yields. -/
theorem load_spec (coherent : engine.Coherent store) (now : Time.Instant) (scope : Scope) :
    (engine.load now store.activeRules scope).2.Coherent store ∧
      (engine.load now store.activeRules scope).2.caseSensitive = engine.caseSensitive ∧
      ∀ rules, (engine.load now store.activeRules scope).1 = .ok rules →
        ∀ compiled ∈ rules, store.Offers scope compiled := by
  refine ⟨Keeps.load coherent fun _ listed _ => offers_of_compileAll listed, ?_⟩
  unfold load
  split
  · rename_i rules kept
    refine ⟨rfl, ?_⟩
    rintro _ ⟨⟩ compiled member
    exact offers_of_remembered? coherent kept member
  · dsimp only
    split
    · rename_i rules listed
      refine ⟨caseSensitive_remember _ _ _ _, ?_⟩
      rintro _ ⟨⟩ compiled member
      exact offers_of_compileAll listed member
    · refine ⟨rfl, ?_⟩
      rintro _ ⟨⟩

theorem mem_evaluate {caseSensitive : Bool} {rules : List CompiledRule} {entry : LogEntry}
    {compiled : CompiledRule} (found : compiled ∈ (evaluate caseSensitive rules entry).matched) :
    compiled ∈ rules ∧ compiled.holds caseSensitive entry entry.fields = .ok true := by
  obtain ⟨⟨rule, result⟩, matched, rfl⟩ := List.mem_map.1 found
  obtain ⟨computed, isMatch⟩ := List.mem_filter.1 matched
  obtain ⟨other, member, same⟩ := List.mem_map.1 computed
  cases same
  refine ⟨member, ?_⟩
  cases holds : rule.holds caseSensitive entry entry.fields with
  | error fault => simp only [holds, Engine.isMatch] at isMatch; cases isMatch
  | ok b =>
      simp only [holds, Engine.isMatch] at isMatch
      rw [isMatch]

/-- What evaluating a list of logs finds. -/
theorem evaluateAll_spec (now : Time.Instant) (rules : List CompiledRule) (batch : List Value)
    (engine : Engine) :
    (evaluateAll now rules batch engine).2.caseSensitive = engine.caseSensitive ∧
      ∀ results, (evaluateAll now rules batch engine).1 = .ok results →
        ∀ found ∈ results.flatten,
          found.rule ∈ rules ∧ found.rule.Matches engine.caseSensitive now batch := by
  induction batch generalizing engine with
  | nil =>
      refine ⟨rfl, ?_⟩
      rintro _ ⟨⟩ found member
      cases member
  | cons data rest ih =>
      unfold evaluateAll
      split
      · refine ⟨rfl, ?_⟩
        rintro _ ⟨⟩
      · rename_i entry read
        obtain ⟨sameCase, ofRest⟩ := ih (engine.evaluateEntry now rules entry).2
        refine ⟨sameCase, ?_⟩
        intro results ended found member
        change Except.map _ (evaluateAll now rules rest _).1 = _ at ended
        cases later : (evaluateAll now rules rest (engine.evaluateEntry now rules entry).2).1 with
        | error fault =>
            rw [later] at ended
            cases ended
        | ok others =>
            rw [later] at ended
            cases ended
            rcases List.mem_append.1 (List.flatten_cons ▸ member) with here | behind
            · obtain ⟨compiled, matched, rfl⟩ := List.mem_map.1 here
              obtain ⟨ofRules, holds⟩ := mem_evaluate matched
              exact ⟨ofRules, data, List.mem_cons_self, entry, read, holds⟩
            · obtain ⟨ofRules, log, inRest, matches'⟩ := ofRest others later found behind
              exact ⟨ofRules, log, List.mem_cons_of_mem _ inRest, matches'⟩

/-- **What evaluating a batch leaves behind, and what it finds**: matches of rules that the store
offers to the scope, each with a log of the batch. -/
theorem evaluateBatch_spec (coherent : engine.Coherent store) (now : Time.Instant) (scope : Scope)
    (batch : List Value) :
    (engine.evaluateBatch now store.activeRules scope batch).2.Coherent store ∧
      (engine.evaluateBatch now store.activeRules scope batch).2.caseSensitive =
        engine.caseSensitive ∧
      ∀ results, (engine.evaluateBatch now store.activeRules scope batch).1 = .ok results →
        ∀ found ∈ results.flatten,
          store.Offers scope found.rule ∧ found.rule.Matches engine.caseSensitive now batch := by
  refine ⟨Keeps.evaluateBatch coherent (fun _ listed _ => offers_of_compileAll listed) batch, ?_⟩
  obtain ⟨-, sameCase, offered⟩ := load_spec coherent now scope
  unfold evaluateBatch
  split
  · rename_i result
    rw [result] at sameCase
    refine ⟨sameCase, ?_⟩
    rintro _ ⟨⟩
  · rename_i rules later result
    rw [result] at sameCase offered
    obtain ⟨sameCase', finds⟩ := evaluateAll_spec now rules batch later
    refine ⟨sameCase'.trans sameCase, ?_⟩
    intro results ended found member
    obtain ⟨ofRules, matches'⟩ := finds results ended found member
    exact ⟨offered rules rfl found.rule ofRules, sameCase ▸ matches'⟩

theorem evaluateLog_spec (coherent : engine.Coherent store) (now : Time.Instant) (scope : Scope)
    (data : Value) : (engine.evaluateLog now store.activeRules scope data).2.Coherent store :=
  Keeps.evaluateLog coherent (fun _ listed _ => offers_of_compileAll listed) data

end Engine

end LogAlert
