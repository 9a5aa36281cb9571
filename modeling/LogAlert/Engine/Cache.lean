/-
# LogAlert.Engine.Cache -- the detection engine

The engine evaluates log entries for a scope: an organization, and one of its projects if one is
given. The rules of a scope come from a source and are kept in compiled form for a while
(`Engine.remembered?`), so that a batch of entries is evaluated against one list of rules. The
engine counts entries, matches and failed evaluations.
-/
import LogAlert.Engine.Evaluation

set_option autoImplicit false

namespace LogAlert

/-- Whose rules are meant. -/
structure Scope where
  organization : String
  project : Option String
deriving DecidableEq, Repr, Inhabited

namespace Engine

/-- The rules of a scope as they were at a point of time. -/
structure Remembered where
  scope : Scope
  time : Time.Instant
  rules : List CompiledRule
deriving Repr

/-- A rule that matched an entry, and when that was found. -/
structure Match where
  rule : CompiledRule
  time : Time.Instant
deriving Repr

end Engine

/-- The state of a detection engine. -/
structure Engine where
  caseSensitive : Bool
  /-- How many microseconds rules are kept; they are not kept at all unless this is positive. -/
  lifetime : Int
  /-- At most one list of rules for each scope. -/
  cache : List Engine.Remembered
  /-- How often the source was asked for rules. -/
  loads : Nat
  logsEvaluated : Nat
  rulesMatched : Nat
  evaluationErrors : Nat
deriving Repr

namespace Engine

/-- An engine that has not evaluated anything yet. -/
def fresh (caseSensitive : Bool) (lifetime : Int) : Engine :=
  ⟨caseSensitive, lifetime, [], 0, 0, 0, 0⟩

/-- The rules that are kept for a scope and not too old. -/
def remembered? (engine : Engine) (now : Time.Instant) (scope : Scope) :
    Option (List CompiledRule) :=
  if 0 < engine.lifetime then
    match engine.cache.find? fun kept => kept.scope = scope with
    | some kept => if now.micros - kept.time.micros < engine.lifetime then some kept.rules else none
    | none => none
  else none

/-- Keep the rules of a scope in the place of those kept before. -/
def remember (engine : Engine) (now : Time.Instant) (scope : Scope) (rules : List CompiledRule) :
    Engine :=
  if 0 < engine.lifetime then
    { engine with
      cache := engine.cache.filter (fun kept => kept.scope ≠ scope) ++ [⟨scope, now, rules⟩] }
  else engine

/-- The compiled rules of a scope: the kept ones, or those that the source lists now. -/
def load (engine : Engine) (now : Time.Instant) (source : Scope → Except Fault (List Sigma.Rule))
    (scope : Scope) : Except Fault (List CompiledRule) × Engine :=
  match engine.remembered? now scope with
  | some rules => (.ok rules, engine)
  | none =>
    let engine := { engine with loads := engine.loads + 1 }
    match source scope >>= compileAll with
    | .ok rules => (.ok rules, engine.remember now scope rules)
    | .error fault => (.error fault, engine)

/-- Forget the rules kept for an organization, or for all. -/
def invalidate (engine : Engine) (organization : Option String) : Engine :=
  match organization with
  | none => { engine with cache := [] }
  | some name =>
    { engine with cache := engine.cache.filter fun kept => kept.scope.organization ≠ name }

/-- Evaluate one entry against compiled rules. -/
def evaluateEntry (engine : Engine) (now : Time.Instant) (rules : List CompiledRule)
    (entry : LogEntry) : List Match × Engine :=
  let outcome := evaluate engine.caseSensitive rules entry
  (outcome.matched.map fun rule => ⟨rule, now⟩,
    { engine with
      logsEvaluated := engine.logsEvaluated + 1
      rulesMatched := engine.rulesMatched + outcome.matched.length
      evaluationErrors := engine.evaluationErrors + outcome.failures })

/-- Read and evaluate entries one after the other, up to the first that cannot be read. -/
def evaluateAll (now : Time.Instant) (rules : List CompiledRule) :
    List Value → Engine → Except Fault (List (List Match)) × Engine
  | [], engine => (.ok [], engine)
  | data :: rest, engine =>
    match LogEntry.ofValue now data with
    | .error fault => (.error fault, engine)
    | .ok entry =>
      let (matched, engine) := engine.evaluateEntry now rules entry
      let (results, engine) := evaluateAll now rules rest engine
      (results.map (matched :: ·), engine)

/-- Evaluate a batch of entries against one list of rules; results are in the order of the
entries. -/
def evaluateBatch (engine : Engine) (now : Time.Instant)
    (source : Scope → Except Fault (List Sigma.Rule)) (scope : Scope) (batch : List Value) :
    Except Fault (List (List Match)) × Engine :=
  match engine.load now source scope with
  | (.error fault, engine) => (.error fault, engine)
  | (.ok rules, engine) => evaluateAll now rules batch engine

/-- Evaluate entries one after the other. -/
def evaluateEntries (now : Time.Instant) (rules : List CompiledRule) :
    List LogEntry → Engine → List (List Match) × Engine
  | [], engine => ([], engine)
  | entry :: rest, engine =>
    let (matched, engine) := engine.evaluateEntry now rules entry
    let (results, engine) := evaluateEntries now rules rest engine
    (matched :: results, engine)

/-- Evaluate a batch of entries that have been read already. -/
def evaluateEntryBatch (engine : Engine) (now : Time.Instant)
    (source : Scope → Except Fault (List Sigma.Rule)) (scope : Scope) (entries : List LogEntry) :
    Except Fault (List (List Match)) × Engine :=
  match engine.load now source scope with
  | (.error fault, engine) => (.error fault, engine)
  | (.ok rules, engine) =>
    let (results, engine) := evaluateEntries now rules entries engine
    (.ok results, engine)

/-- Evaluate a single entry, which is read before the rules are loaded. -/
def evaluateLog (engine : Engine) (now : Time.Instant)
    (source : Scope → Except Fault (List Sigma.Rule)) (scope : Scope) (data : Value) :
    Except Fault (List Match) × Engine :=
  match LogEntry.ofValue now data with
  | .error fault => (.error fault, engine)
  | .ok entry =>
    match engine.load now source scope with
    | (.error fault, engine) => (.error fault, engine)
    | (.ok rules, engine) =>
      let (matched, engine) := engine.evaluateEntry now rules entry
      (.ok matched, engine)

end Engine

end LogAlert
