/-
# LogAlert.Proofs.Engine.Memory -- what an engine keeps

The engine keeps the compiled rules of a scope when it loads them, and at no other time.  So if a
property is true of all entries that it keeps (`Keeps`), and of those that loading the rules of a
scope makes, then it stays true, whatever the engine is used for.
-/
import LogAlert.Proofs.Engine.Freshness

set_option autoImplicit false

namespace LogAlert.Engine

/-- All entries that are kept have the property. -/
def Keeps (engine : Engine) (P : Remembered → Prop) : Prop := ∀ kept ∈ engine.cache, P kept

variable {engine other : Engine} {P Q : Remembered → Prop} {now : Time.Instant} {scope : Scope}
variable {source : Scope → Except Fault (List Sigma.Rule)}

/-- Evaluating entries leaves the memory alone. -/
theorem cache_evaluateAll (now : Time.Instant) (rules : List CompiledRule) (batch : List Value)
    (engine : Engine) : (evaluateAll now rules batch engine).2.cache = engine.cache := by
  induction batch generalizing engine with
  | nil => rfl
  | cons data rest ih =>
      unfold evaluateAll
      split
      · rfl
      · exact ih _

namespace Keeps

theorem of_noneKept (none : engine.cache = []) : engine.Keeps P := by
  intro kept member
  rw [none] at member
  cases member

/-- It depends on nothing of the engine but its memory. -/
theorem of_cache (keeps : engine.Keeps P) (same : other.cache = engine.cache) : other.Keeps P := by
  intro kept member
  exact keeps kept (same ▸ member)

theorem imp (keeps : engine.Keeps P) (weaker : ∀ kept, P kept → Q kept) : engine.Keeps Q :=
  fun kept member => weaker kept (keeps kept member)

theorem invalidate (keeps : engine.Keeps P) (organization : Option String) :
    (engine.invalidate organization).Keeps P := by
  cases organization with
  | none => exact of_noneKept rfl
  | some name =>
      intro kept member
      exact keeps kept (List.mem_filter.1 member).1

theorem remember {rules : List CompiledRule} (keeps : engine.Keeps P)
    (new : P ⟨scope, now, rules⟩) : (engine.remember now scope rules).Keeps P := by
  unfold Engine.remember
  split
  · intro kept member
    rcases List.mem_append.1 member with old | last
    · exact keeps kept (List.mem_filter.1 old).1
    · exact List.mem_singleton.1 last ▸ new
  · exact keeps

/-- Loading the rules of a scope. -/
theorem load (keeps : engine.Keeps P)
    (new : ∀ rules, (source scope >>= compileAll) = .ok rules → P ⟨scope, now, rules⟩) :
    (engine.load now source scope).2.Keeps P := by
  obtain ⟨_, -, -, loaded⟩ | ⟨-, ⟨rules, listed, loaded⟩ | ⟨_, -, loaded⟩⟩ :=
    engine.load_cases now source scope
  · rw [loaded]
    exact keeps
  · rw [loaded]
    exact remember (keeps.of_cache rfl) (new rules listed)
  · rw [loaded]
    exact keeps.of_cache rfl

theorem evaluateBatch (keeps : engine.Keeps P)
    (new : ∀ rules, (source scope >>= compileAll) = .ok rules → P ⟨scope, now, rules⟩)
    (batch : List Value) : (engine.evaluateBatch now source scope batch).2.Keeps P := by
  have loaded := keeps.load new
  unfold Engine.evaluateBatch
  split
  · rename_i result
    rw [result] at loaded
    exact loaded
  · rename_i result
    rw [result] at loaded
    exact loaded.of_cache (cache_evaluateAll now _ batch _)

theorem evaluateLog (keeps : engine.Keeps P)
    (new : ∀ rules, (source scope >>= compileAll) = .ok rules → P ⟨scope, now, rules⟩)
    (data : Value) : (engine.evaluateLog now source scope data).2.Keeps P := by
  have loaded := keeps.load new
  unfold Engine.evaluateLog
  split
  · exact keeps
  · split
    · rename_i result
      rw [result] at loaded
      exact loaded
    · rename_i result
      rw [result] at loaded
      exact loaded.of_cache rfl

end Keeps

end LogAlert.Engine
