/-
# LogAlert.Proofs.Engine.Freshness -- how old the rules of a scope can be

The engine keeps the rules of a scope for a while, and meanwhile the source may list others.  A
`Setting` is an engine with the source of its rules and the clock, and an `Incident` is one of the
things that can happen to it: the source lists other rules, the clock shows another time, the rules
of a scope are loaded, or the engine forgets rules.  Nothing is assumed of their order, and the clock
may be set back.

What the engine keeps for a scope is one entry (`kept?`), and all that the operations do to it is
said by `kept?_remember`, `kept?_invalidate` and `kept?_load_of_ne`.  Two statements follow by
induction on a run.  An entry was listed for this very scope at some point of the run, at the time
that the entry bears, and nothing has made the engine forget it since (`kept_origin`).  And an engine
that forgets the rules of one organization goes on like one that does not, as far as the scopes of
others are concerned (`Alike.runs`).

Main statement: `load_recent`.
-/
import LogAlert.Proofs.Engine.Independence
import Mathlib.Data.List.Induction

set_option autoImplicit false

namespace LogAlert.Engine

/-! ## What is kept for a scope -/

/-- The entry of a scope, of any age. -/
def kept? (engine : Engine) (scope : Scope) : Option Remembered :=
  engine.cache.find? fun kept => kept.scope = scope

variable {engine other : Engine} {now : Time.Instant} {scope : Scope} {rules : List CompiledRule}
variable {source : Scope → Except Fault (List Sigma.Rule)}

theorem remembered?_eq_some : engine.remembered? now scope = some rules ↔
    ∃ kept, engine.kept? scope = some kept ∧ kept.rules = rules ∧ 0 < engine.lifetime ∧
      now.micros - kept.time.micros < engine.lifetime := by
  unfold remembered? kept?
  by_cases keeps : 0 < engine.lifetime
  · rw [if_pos keeps]
    cases engine.cache.find? fun kept => kept.scope = scope with
    | none => simp
    | some kept =>
        by_cases young : now.micros - kept.time.micros < engine.lifetime <;> simp [keeps, young]
  · simp [keeps]

/-- What is remembered depends on nothing but the lifetime and the entry of the scope. -/
theorem remembered?_congr (lifetime : engine.lifetime = other.lifetime)
    (kept : engine.kept? scope = other.kept? scope) :
    engine.remembered? now scope = other.remembered? now scope := by
  refine Option.ext fun rules => ?_
  rw [remembered?_eq_some, remembered?_eq_some, lifetime, kept]

theorem lifetime_remember (engine : Engine) (now : Time.Instant) (scope : Scope)
    (rules : List CompiledRule) : (engine.remember now scope rules).lifetime = engine.lifetime := by
  unfold remember
  split <;> rfl

section Filter

variable {α : Type} {p q : α → Bool}

/-- What is searched for is not among those that are taken away. -/
theorem find?_filter_of_imp (searched : ∀ x, q x = true → p x = true) (xs : List α) :
    (xs.filter p).find? q = xs.find? q := by
  rw [List.find?_filter]
  congr 1
  funext x
  by_cases found : q x = true <;> simp [found, searched x]

/-- All that is searched for is taken away. -/
theorem find?_filter_of_not (searched : ∀ x, q x = true → p x = false) (xs : List α) :
    (xs.filter p).find? q = none := by
  rw [List.find?_eq_none]
  intro x left found
  exact Bool.false_ne_true ((searched x found).symm.trans (List.mem_filter.1 left).2)

end Filter

/-- Remembering rules replaces the entry of their scope, if rules are kept at all. -/
theorem kept?_remember (engine : Engine) (now : Time.Instant) (scope : Scope)
    (rules : List CompiledRule) (asked : Scope) :
    (engine.remember now scope rules).kept? asked =
      if 0 < engine.lifetime ∧ asked = scope then some ⟨scope, now, rules⟩
      else engine.kept? asked := by
  unfold remember kept?
  by_cases keeps : 0 < engine.lifetime
  · rw [if_pos keeps, List.find?_append]
    by_cases same : asked = scope
    · subst same
      rw [find?_filter_of_not (by simp)]
      simp [keeps]
    · have others : ∀ kept : Remembered, decide (kept.scope = asked) = true →
          decide (kept.scope ≠ scope) = true := by
        intro kept found
        rw [of_decide_eq_true found]
        exact decide_eq_true same
      rw [find?_filter_of_imp others]
      simp [same, Ne.symm same]
  · rw [if_neg keeps, if_neg fun both => keeps both.1]

/-- Forgetting removes the entries of one organization, or all, and no others. -/
theorem kept?_invalidate (engine : Engine) (organization : Option String) (asked : Scope) :
    (engine.invalidate organization).kept? asked =
      if organization = none ∨ organization = some asked.organization then none
      else engine.kept? asked := by
  cases organization with
  | none => simp [invalidate, kept?]
  | some name =>
      unfold invalidate kept?
      by_cases own : name = asked.organization
      · subst own
        have its : ∀ kept : Remembered, decide (kept.scope = asked) = true →
            decide (kept.scope.organization ≠ asked.organization) = false := by
          intro kept found
          rw [of_decide_eq_true found]
          exact decide_eq_false fun different => different rfl
        rw [find?_filter_of_not its]
        simp
      · have others : ∀ kept : Remembered, decide (kept.scope = asked) = true →
            decide (kept.scope.organization ≠ name) = true := by
          intro kept found
          rw [of_decide_eq_true found]
          exact decide_eq_true (Ne.symm own)
        rw [find?_filter_of_imp others]
        simp [own]

theorem lifetime_invalidate (engine : Engine) (organization : Option String) :
    (engine.invalidate organization).lifetime = engine.lifetime := by
  cases organization <;> rfl

/-! ## Loading -/

/-- Loading answers with the entry of the scope if it is young enough, and else with what the source
lists now, which is kept if there is no fault in it. -/
theorem load_cases (engine : Engine) (now : Time.Instant)
    (source : Scope → Except Fault (List Sigma.Rule)) (scope : Scope) :
    (∃ kept, engine.kept? scope = some kept ∧ now.micros - kept.time.micros < engine.lifetime ∧
        engine.load now source scope = (.ok kept.rules, engine)) ∨
      engine.remembered? now scope = none ∧
        ((∃ rules, (source scope >>= compileAll) = .ok rules ∧
            engine.load now source scope = (.ok rules,
              { engine with loads := engine.loads + 1 }.remember now scope rules)) ∨
          ∃ fault, (source scope >>= compileAll) = .error fault ∧
            engine.load now source scope =
              (.error fault, { engine with loads := engine.loads + 1 })) := by
  unfold load
  cases remembered : engine.remembered? now scope with
  | some rules =>
      obtain ⟨kept, found, rfl, -, young⟩ := remembered?_eq_some.1 remembered
      exact .inl ⟨kept, found, young, rfl⟩
  | none =>
      refine .inr ⟨rfl, ?_⟩
      cases listed : source scope >>= compileAll with
      | ok rules => exact .inl ⟨rules, rfl, by simp only⟩
      | error fault => exact .inr ⟨fault, rfl, by simp only⟩

theorem lifetime_load (engine : Engine) (now : Time.Instant)
    (source : Scope → Except Fault (List Sigma.Rule)) (scope : Scope) :
    (engine.load now source scope).2.lifetime = engine.lifetime := by
  obtain ⟨_, -, -, loaded⟩ | ⟨-, ⟨_, -, loaded⟩ | ⟨_, -, loaded⟩⟩ :=
    engine.load_cases now source scope
  · rw [loaded]
  · rw [loaded, lifetime_remember]
  · rw [loaded]

/-- Loading the rules of a scope leaves the entries of other scopes alone. -/
theorem kept?_load_of_ne {asked : Scope} (different : asked ≠ scope) (engine : Engine)
    (now : Time.Instant) (source : Scope → Except Fault (List Sigma.Rule)) :
    (engine.load now source scope).2.kept? asked = engine.kept? asked := by
  obtain ⟨_, -, -, loaded⟩ | ⟨-, ⟨_, -, loaded⟩ | ⟨_, -, loaded⟩⟩ :=
    engine.load_cases now source scope
  · rw [loaded]
  · rw [loaded, kept?_remember, if_neg fun both => different both.2]
    rfl
  · rw [loaded]
    rfl

/-- After loading, the entry of the scope is the one before, or it is new. -/
theorem kept?_load {kept : Remembered}
    (found : (engine.load now source scope).2.kept? scope = some kept) :
    engine.kept? scope = some kept ∨
      (source scope >>= compileAll) = .ok kept.rules ∧ kept.time = now := by
  obtain ⟨_, -, -, loaded⟩ | ⟨-, ⟨rules, listed, loaded⟩ | ⟨_, -, loaded⟩⟩ :=
    engine.load_cases now source scope
  · rw [loaded] at found
    exact .inl found
  · rw [loaded, kept?_remember] at found
    split at found
    · cases found
      exact .inr ⟨listed, rfl⟩
    · exact .inl found
  · rw [loaded] at found
    exact .inl found

/-- What loading answers, and the entry that it leaves, depend on nothing of the engine but the
lifetime and the entry of the scope. -/
theorem load_congr (lifetime : engine.lifetime = other.lifetime)
    (kept : engine.kept? scope = other.kept? scope) (now : Time.Instant)
    (source : Scope → Except Fault (List Sigma.Rule)) :
    (engine.load now source scope).1 = (other.load now source scope).1 ∧
      (engine.load now source scope).2.kept? scope =
        (other.load now source scope).2.kept? scope := by
  have remembered : engine.remembered? now scope = other.remembered? now scope :=
    remembered?_congr lifetime kept
  unfold load
  rw [remembered]
  cases other.remembered? now scope with
  | some rules => exact ⟨rfl, kept⟩
  | none =>
      cases listed : source scope >>= compileAll with
      | ok rules =>
          simp only [kept?_remember, lifetime, true_and]
          split
          · rfl
          · exact kept
      | error fault => exact ⟨rfl, kept⟩

/-! ## Runs -/

/-- What can happen to an engine, to the source of its rules, and to the clock. -/
inductive Incident where
  /-- The source lists these rules from now on. -/
  | relists (source : Scope → Except Fault (List Sigma.Rule))
  /-- The clock shows this time from now on. -/
  | shows (now : Time.Instant)
  | loads (scope : Scope)
  | invalidates (organization : Option String)

/-- The engine forgets the rules of the organization. -/
def Incident.Forgets (organization : String) : Incident → Prop
  | .invalidates forgotten => forgotten = none ∨ forgotten = some organization
  | _ => False

/-- An engine, the source of its rules, and the clock. -/
structure Setting where
  engine : Engine
  source : Scope → Except Fault (List Sigma.Rule)
  now : Time.Instant

namespace Setting

/-- What loading the rules of a scope answers. -/
def loaded (setting : Setting) (scope : Scope) : Except Fault (List CompiledRule) :=
  (setting.engine.load setting.now setting.source scope).1

/-- The compiled form of the rules that the source lists for a scope. -/
def listed (setting : Setting) (scope : Scope) : Except Fault (List CompiledRule) :=
  setting.source scope >>= compileAll

/-- The setting after an incident. -/
def step (setting : Setting) : Incident → Setting
  | .relists source => { setting with source }
  | .shows now => { setting with now }
  | .loads scope =>
    { setting with engine := (setting.engine.load setting.now setting.source scope).2 }
  | .invalidates organization =>
    { setting with engine := setting.engine.invalidate organization }

/-- The setting after several incidents. -/
def run (setting : Setting) (incidents : List Incident) : Setting := incidents.foldl step setting

variable {start setting one other : Setting} {incidents : List Incident} {incident : Incident}
variable {scope : Scope} {kept : Remembered}

theorem run_append (start : Setting) (incidents more : List Incident) :
    start.run (incidents ++ more) = (start.run incidents).run more :=
  List.foldl_append

theorem lifetime_run (start : Setting) (incidents : List Incident) :
    (start.run incidents).engine.lifetime = start.engine.lifetime := by
  induction incidents generalizing start with
  | nil => rfl
  | cons incident rest ih =>
      refine (ih _).trans ?_
      cases incident with
      | loads scope => exact lifetime_load ..
      | invalidates organization => exact lifetime_invalidate ..
      | relists | shows => rfl

/-! ## Where an entry comes from -/

/-- At some point of the run, and at the time that the entry bears, the source listed its rules for
the scope; and nothing has made the engine forget them since. -/
def Yields (start : Setting) (incidents : List Incident) (scope : Scope) (kept : Remembered) :
    Prop :=
  ∃ earlier later, incidents = earlier ++ later ∧
    (start.run earlier).listed scope = .ok kept.rules ∧ kept.time = (start.run earlier).now ∧
    ∀ incident ∈ later, ¬ incident.Forgets scope.organization

theorem Yields.concat (yields : start.Yields incidents scope kept)
    (remembers : ¬ incident.Forgets scope.organization) :
    start.Yields (incidents ++ [incident]) scope kept := by
  obtain ⟨earlier, later, rfl, listed, time, unforgotten⟩ := yields
  refine ⟨earlier, later ++ [incident], List.append_assoc .., listed, time, ?_⟩
  intro other member
  rcases List.mem_append.1 member with old | new
  · exact unforgotten other old
  · rwa [List.mem_singleton.1 new]

/-- An entry that is there after an incident was there before, and was not forgotten, or it was
listed just now. -/
theorem kept_step (found : (setting.step incident).engine.kept? scope = some kept) :
    setting.engine.kept? scope = some kept ∧ ¬ incident.Forgets scope.organization ∨
      setting.listed scope = .ok kept.rules ∧ kept.time = setting.now ∧
        incident = .loads scope := by
  cases incident with
  | relists | shows => exact .inl ⟨found, id⟩
  | loads other =>
      by_cases same : scope = other
      · subst same
        rcases kept?_load found with old | ⟨listed, time⟩
        · exact .inl ⟨old, id⟩
        · exact .inr ⟨listed, time, rfl⟩
      · exact .inl ⟨(kept?_load_of_ne same ..).symm.trans found, id⟩
  | invalidates organization =>
      have left := (kept?_invalidate setting.engine organization scope).symm.trans found
      split at left
      · cases left
      · rename_i remembers
        exact .inl ⟨left, remembers⟩

/-- **Where the entries of an engine come from.** -/
theorem kept_origin (unused : start.engine.cache = [])
    (found : (start.run incidents).engine.kept? scope = some kept) :
    start.Yields incidents scope kept := by
  induction incidents using List.reverseRecOn with
  | nil =>
      change start.engine.cache.find? _ = _ at found
      rw [unused] at found
      cases found
  | append_singleton incidents incident ih =>
      rw [run_append] at found
      rcases kept_step found with ⟨old, remembers⟩ | ⟨listed, time, rfl⟩
      · exact (ih old).concat remembers
      · refine ⟨incidents, [.loads scope], rfl, listed, time, ?_⟩
        intro other member
        rw [List.mem_singleton.1 member]
        exact id

/-! ## Scopes of other organizations -/

/-- For a scope, nothing tells the settings apart. -/
structure Alike (scope : Scope) (one other : Setting) : Prop where
  source : one.source = other.source
  now : one.now = other.now
  lifetime : one.engine.lifetime = other.engine.lifetime
  kept : one.engine.kept? scope = other.engine.kept? scope

namespace Alike

theorem refl (scope : Scope) (setting : Setting) : Alike scope setting setting :=
  ⟨rfl, rfl, rfl, rfl⟩

theorem loaded (alike : Alike scope one other) : one.loaded scope = other.loaded scope := by
  rw [Setting.loaded, Setting.loaded, alike.source, alike.now]
  exact (load_congr alike.lifetime alike.kept other.now other.source).1

/-- Whatever happens to both leaves them alike. -/
theorem step (alike : Alike scope one other) (incident : Incident) :
    Alike scope (one.step incident) (other.step incident) := by
  obtain ⟨source, now, lifetime, kept⟩ := alike
  cases incident with
  | relists source => exact ⟨rfl, now, lifetime, kept⟩
  | shows now => exact ⟨source, rfl, lifetime, kept⟩
  | loads asked =>
      refine ⟨source, now, ?_, ?_⟩
      · exact (lifetime_load ..).trans (lifetime.trans (lifetime_load ..).symm)
      · dsimp only [Setting.step]
        rw [source, now]
        by_cases same : scope = asked
        · subst same
          exact (load_congr lifetime kept other.now other.source).2
        · rw [kept?_load_of_ne same, kept?_load_of_ne same, kept]
  | invalidates organization =>
      refine ⟨source, now, ?_, ?_⟩
      · exact (lifetime_invalidate ..).trans (lifetime.trans (lifetime_invalidate ..).symm)
      · dsimp only [Setting.step]
        rw [kept?_invalidate, kept?_invalidate, kept]

/-- So does a run. -/
theorem runs (alike : Alike scope one other) (incidents : List Incident) :
    Alike scope (one.run incidents) (other.run incidents) := by
  induction incidents generalizing one other with
  | nil => exact alike
  | cons incident rest ih => exact ih (alike.step incident)

end Alike

/-- Forgetting the rules of one organization makes no difference to the scopes of another. -/
theorem alike_invalidates {name : String} (another : name ≠ scope.organization)
    (setting : Setting) : Alike scope (setting.step (.invalidates (some name))) setting := by
  refine ⟨rfl, rfl, rfl, ?_⟩
  refine (kept?_invalidate setting.engine (some name) scope).trans (if_neg ?_)
  rintro (⟨⟨⟩⟩ | same)
  exact another (Option.some.inj same)

end Setting

/-- **Rules are never older than promised, and never those of another scope.**  Whatever the lifetime
of rules is, and whatever has happened to a new engine, its source and the clock: loading the rules
of a scope answers with what the source listed for this scope at the present point of the run, or at
an earlier one less than a lifetime ago, and nothing has made the engine forget the rules of the
organization since; a fault is always one of the present.  If the engine forgets the rules of one
organization, then the answers for the scopes of others are the same for all time as if it did
not. -/
theorem load_recent (caseSensitive : Bool) (lifetime : Int)
    (source : Scope → Except Fault (List Sigma.Rule)) (now : Time.Instant)
    (incidents : List Incident) (scope : Scope) :
    let start : Setting := ⟨fresh caseSensitive lifetime, source, now⟩
    let present := start.run incidents
    (∃ earlier later, incidents = earlier ++ later ∧
      present.loaded scope = (start.run earlier).listed scope ∧
      (later = [] ∨
        present.now.micros - (start.run earlier).now.micros < lifetime ∧
          ∃ rules, present.loaded scope = .ok rules) ∧
      ∀ incident ∈ later, ¬ incident.Forgets scope.organization) ∧
    ∀ name, name ≠ scope.organization → ∀ more,
      (start.run (incidents ++ .invalidates (some name) :: more)).loaded scope =
        (start.run (incidents ++ more)).loaded scope := by
  intro start present
  constructor
  · obtain ⟨kept, found, young, loaded⟩ | ⟨-, anew⟩ :=
      present.engine.load_cases present.now present.source scope
    · obtain ⟨earlier, later, parts, listed, time, unforgotten⟩ := Setting.kept_origin rfl found
      have answer : present.loaded scope = .ok kept.rules := congrArg Prod.fst loaded
      have lasting : present.engine.lifetime = lifetime := Setting.lifetime_run start incidents
      refine ⟨earlier, later, parts, answer.trans listed.symm, .inr ⟨?_, _, answer⟩, unforgotten⟩
      rwa [← time, ← lasting]
    · refine ⟨incidents, [], (List.append_nil _).symm, ?_, .inl rfl, List.forall_mem_nil _⟩
      obtain ⟨rules, listed, loaded⟩ | ⟨fault, listed, loaded⟩ := anew
      · exact (congrArg Prod.fst loaded).trans listed.symm
      · exact (congrArg Prod.fst loaded).trans listed.symm
  · intro name another more
    rw [Setting.run_append, Setting.run_append]
    exact ((Setting.alike_invalidates another present).runs more).loaded

/-- Rules are loaded, and then the source lists another rule and the clock shows this time. -/
def relisted (micros : Int) : Setting :=
  let listed (id : String) := listing [ruleOn id "sel" (.keywords ["psexec"])]
  Setting.run ⟨fresh false 30, listed "old", ⟨0⟩⟩
    [.loads ⟨"o", none⟩, .relists (listed "new"), .shows ⟨micros⟩]

example : [relisted 29, relisted 30].map (fun setting =>
    (setting.loaded ⟨"o", none⟩).toOption.map (·.map (·.rule.id))) =
      [some ["old"], some ["new"]] := by decide +kernel

end LogAlert.Engine
