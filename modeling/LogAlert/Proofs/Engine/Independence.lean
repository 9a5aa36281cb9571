/-
# LogAlert.Proofs.Engine.Independence -- rules are evaluated one by one

A batch is evaluated against a list of rules, and the results are put together in nested loops: rules
whose condition cannot be read are left out when they are loaded, a rule that fails is skipped, and
three counts are kept on the way.  Here it is said what comes of that without any loop: `found` lists
the matches of each entry, where each rule is asked on its own (`matching`), and `failing` the rules
that could not be evaluated for it.

* `compileAll_eq`, `load_eq`: the rules that are evaluated are those that can be read.
* `evaluateAll_eq`: the results and the counts of a whole batch, by induction on the batch.
* `evaluateBatch_independent`: the results for two lists of rules, one after the other, are those for
  the first list followed by those for the second.
-/
import LogAlert.Engine.Cache
import LogAlert.Proofs.Outcome

set_option autoImplicit false

namespace LogAlert.Engine

/-! ## Each rule on its own -/

/-- The condition of the rule can be read, or it is found to be none. -/
def Decided (rule : Sigma.Rule) : Prop :=
  (∃ tree, Condition.parse rule.detection.condition = .ok tree) ∨
    ∃ error, Condition.parse rule.detection.condition = .error (.syntaxError error)

/-- The compiled form of a rule whose condition can be read. -/
def compiled? (rule : Sigma.Rule) : Option CompiledRule := (compile rule).toOption.join

/-- The rules of the list that can be read and hold of the entry, in their order. -/
def matching (caseSensitive : Bool) (entry : LogEntry) (rules : List Sigma.Rule) :
    List CompiledRule :=
  (rules.filterMap compiled?).filter fun rule =>
    isMatch (rule.holds caseSensitive entry entry.fields)

/-- The rules of the list that can be read and fail when they are evaluated for the entry. -/
def failing (caseSensitive : Bool) (entry : LogEntry) (rules : List Sigma.Rule) :
    List CompiledRule :=
  (rules.filterMap compiled?).filter fun rule =>
    isFailure (rule.holds caseSensitive entry entry.fields)

/-- The matches of each entry, in the order of the entries. -/
def found (caseSensitive : Bool) (now : Time.Instant) (entries : List LogEntry)
    (rules : List Sigma.Rule) : List (List Match) :=
  entries.map fun entry => (matching caseSensitive entry rules).map fun rule => ⟨rule, now⟩

/-- For this scope the engine works with these rules: the source lists them, and if the engine
remembers any rules, they are those that can be read. -/
structure WorksWith (engine : Engine) (now : Time.Instant)
    (source : Scope → Except Fault (List Sigma.Rule)) (scope : Scope) (rules : List Sigma.Rule) :
    Prop where
  listed : source scope = .ok rules
  remembered : ∀ kept, engine.remembered? now scope = some kept → kept = rules.filterMap compiled?

variable {caseSensitive : Bool} {now : Time.Instant} {scope : Scope} {engine : Engine}
variable {entry : LogEntry} {rules first second : List Sigma.Rule}
variable {source : Scope → Except Fault (List Sigma.Rule)}

theorem matching_append (caseSensitive : Bool) (entry : LogEntry) (first second : List Sigma.Rule) :
    matching caseSensitive entry (first ++ second) =
      matching caseSensitive entry first ++ matching caseSensitive entry second := by
  simp [matching, List.filterMap_append, List.filter_append]

theorem found_append (caseSensitive : Bool) (now : Time.Instant) (entries : List LogEntry)
    (first second : List Sigma.Rule) :
    found caseSensitive now entries (first ++ second) = List.zipWith (· ++ ·)
      (found caseSensitive now entries first) (found caseSensitive now entries second) := by
  simp [found, matching_append, List.zipWith_map, List.zipWith_self]

/-- A fresh engine works with whatever the source lists. -/
theorem worksWith_fresh (caseSensitive : Bool) (lifetime : Int) (now : Time.Instant)
    (listed : source scope = .ok rules) :
    (fresh caseSensitive lifetime).WorksWith now source scope rules := by
  have nothing : (fresh caseSensitive lifetime).remembered? now scope = none := by
    unfold remembered? fresh
    split <;> rfl
  refine ⟨listed, ?_⟩
  intro kept remembered
  rw [nothing] at remembered
  cases remembered

/-! ## Loading -/

/-- A rule without a readable condition is left out; reading its condition does not fail otherwise. -/
theorem compile_eq {rule : Sigma.Rule} (decided : Decided rule) :
    compile rule = .ok (compiled? rule) := by
  unfold compiled? compile
  rcases decided with ⟨tree, read⟩ | ⟨error, read⟩
  · rw [read]
    rfl
  · rw [read]
    rfl

theorem decided_iff (rule : Sigma.Rule) : Decided rule ↔ (compile rule).toBool = true := by
  constructor
  · intro decided
    rw [compile_eq decided]
    rfl
  · unfold compile Decided
    cases Condition.parse rule.detection.condition with
    | ok tree => exact fun _ => .inl ⟨tree, rfl⟩
    | error error =>
        cases error with
        | syntaxError error => exact fun _ => .inr ⟨error, rfl⟩
        | overlongNumber digits => nofun

instance : DecidablePred Decided := fun rule => decidable_of_iff _ (decided_iff rule).symm

theorem compileAll_eq (decided : ∀ rule ∈ rules, Decided rule) :
    compileAll rules = .ok (rules.filterMap compiled?) := by
  have each : rules.mapM compile = .ok (rules.map compiled?) := by
    rw [mapM_eq_ok, List.forall₂_map_right_iff, List.forall₂_same]
    intro rule member
    exact compile_eq (decided rule member)
  have kept : (rules.map compiled?).reduceOption = rules.filterMap compiled? :=
    List.filterMap_map
  rw [compileAll, each, ok_bind, kept]
  rfl

/-- Loading yields the rules that can be read, and leaves all but the memory as it was. -/
theorem load_eq (decided : ∀ rule ∈ rules, Decided rule)
    (works : engine.WorksWith now source scope rules) :
    ∃ cache loads, engine.load now source scope =
      (.ok (rules.filterMap compiled?), { engine with cache, loads }) := by
  unfold load
  cases remembered : engine.remembered? now scope with
  | some kept =>
      rw [works.remembered kept remembered]
      exact ⟨engine.cache, engine.loads, rfl⟩
  | none =>
      simp only [works.listed, ok_bind, compileAll_eq decided]
      unfold remember
      split
      · exact ⟨_, _, rfl⟩
      · exact ⟨_, _, rfl⟩

/-! ## Evaluating -/

/-- The evaluation of an entry lists the rules that hold of it, and counts those that fail. -/
theorem evaluate_eq (caseSensitive : Bool) (rules : List Sigma.Rule) (entry : LogEntry) :
    evaluate caseSensitive (rules.filterMap compiled?) entry =
      ⟨matching caseSensitive entry rules, (failing caseSensitive entry rules).length⟩ := by
  simp only [evaluate, matching, failing, List.filter_map, List.countP_map, List.map_map,
    ← List.countP_eq_length_filter]
  congr 1
  exact List.map_id _

/-- **A batch entry by entry.** The results are those of the entries, and each count grows by what the
entries contribute to it. -/
theorem evaluateAll_eq {batch : List Value} {entries : List LogEntry}
    (read : batch.mapM (LogEntry.ofValue now) = .ok entries) (rules : List Sigma.Rule)
    (engine : Engine) :
    evaluateAll now (rules.filterMap compiled?) batch engine =
      (.ok (found engine.caseSensitive now entries rules),
        { engine with
          logsEvaluated := engine.logsEvaluated + batch.length
          rulesMatched := engine.rulesMatched +
            (found engine.caseSensitive now entries rules).flatten.length
          evaluationErrors := engine.evaluationErrors +
            (entries.flatMap fun entry => failing engine.caseSensitive entry rules).length }) := by
  induction mapM_eq_ok.1 read generalizing engine with
  | nil => rfl
  | @cons data entry batch entries one others ih =>
      have rest := ih (mapM_eq_ok.2 others) (engine.evaluateEntry now (rules.filterMap compiled?) entry).2
      simp only [evaluateAll, one, evaluateEntry, evaluate_eq] at rest ⊢
      simp only [rest, found, List.map_cons, List.flatten_cons, List.length_append, List.length_map,
        List.length_cons, List.flatMap_cons, Except.map]
      congr 2 <;> omega

/-- Evaluating a single entry. -/
theorem evaluateLog_eq (decided : ∀ rule ∈ rules, Decided rule)
    (works : engine.WorksWith now source scope rules) {data : Value}
    (read : LogEntry.ofValue now data = .ok entry) :
    (engine.evaluateLog now source scope data).1 =
      .ok ((matching engine.caseSensitive entry rules).map fun rule => ⟨rule, now⟩) := by
  obtain ⟨cache, loads, loaded⟩ := load_eq decided works
  simp only [evaluateLog, read, loaded, evaluateEntry, evaluate_eq]

/-- Evaluating a batch: the results, and the counts. -/
theorem evaluateBatch_eq (decided : ∀ rule ∈ rules, Decided rule)
    (works : engine.WorksWith now source scope rules) {batch : List Value}
    {entries : List LogEntry} (read : batch.mapM (LogEntry.ofValue now) = .ok entries) :
    ∃ cache loads, engine.evaluateBatch now source scope batch =
      (.ok (found engine.caseSensitive now entries rules),
        { engine with
          cache, loads
          logsEvaluated := engine.logsEvaluated + batch.length
          rulesMatched := engine.rulesMatched +
            (found engine.caseSensitive now entries rules).flatten.length
          evaluationErrors := engine.evaluationErrors +
            (entries.flatMap fun entry => failing engine.caseSensitive entry rules).length }) := by
  obtain ⟨cache, loads, loaded⟩ := load_eq decided works
  refine ⟨cache, loads, ?_⟩
  rw [evaluateBatch, loaded]
  exact evaluateAll_eq read rules { engine with cache, loads }

/-- **Rules are evaluated independently of each other.**  Whatever rules there are, as long as it can
be decided whether their conditions are any: a batch evaluated against two lists of rules, one after
the other, gives for each entry the matches of the first list and then those of the second; and this
is what the entry gives when it is evaluated alone.  The counts grow by the number of entries, of
matches, and of evaluations of a rule for an entry that failed. -/
theorem evaluateBatch_independent (decided : ∀ rule ∈ first ++ second, Decided rule)
    {batch : List Value} {entries : List LogEntry}
    (read : batch.mapM (LogEntry.ofValue now) = .ok entries)
    {both one other : Engine} {source₁ source₂ : Scope → Except Fault (List Sigma.Rule)}
    (sensitive : both.caseSensitive = caseSensitive)
    (sensitive₁ : one.caseSensitive = caseSensitive)
    (sensitive₂ : other.caseSensitive = caseSensitive)
    (works : both.WorksWith now source scope (first ++ second))
    (works₁ : one.WorksWith now source₁ scope first)
    (works₂ : other.WorksWith now source₂ scope second) :
    ∃ results results₁ results₂,
      (both.evaluateBatch now source scope batch).1 = .ok results ∧
      (one.evaluateBatch now source₁ scope batch).1 = .ok results₁ ∧
      (other.evaluateBatch now source₂ scope batch).1 = .ok results₂ ∧
      results = List.zipWith (· ++ ·) results₁ results₂ ∧
      results₁ = found caseSensitive now entries first ∧
      results₂ = found caseSensitive now entries second ∧
      List.Forall₂ (fun data result => ∀ alone : Engine, alone.caseSensitive = caseSensitive →
          alone.WorksWith now source scope (first ++ second) →
            (alone.evaluateLog now source scope data).1 = .ok result) batch results ∧
      (both.evaluateBatch now source scope batch).2.logsEvaluated =
        both.logsEvaluated + batch.length ∧
      (both.evaluateBatch now source scope batch).2.rulesMatched =
        both.rulesMatched + results.flatten.length ∧
      (both.evaluateBatch now source scope batch).2.evaluationErrors =
        both.evaluationErrors +
          (entries.flatMap fun entry => failing caseSensitive entry (first ++ second)).length := by
  have decided₁ : ∀ rule ∈ first, Decided rule := by
    intro rule member
    exact decided rule (List.mem_append_left _ member)
  have decided₂ : ∀ rule ∈ second, Decided rule := by
    intro rule member
    exact decided rule (List.mem_append_right _ member)
  obtain ⟨_, _, ofBoth⟩ := evaluateBatch_eq decided works read
  obtain ⟨_, _, ofFirst⟩ := evaluateBatch_eq decided₁ works₁ read
  obtain ⟨_, _, ofSecond⟩ := evaluateBatch_eq decided₂ works₂ read
  rw [sensitive] at ofBoth
  rw [sensitive₁] at ofFirst
  rw [sensitive₂] at ofSecond
  have alone : List.Forall₂ (fun data result => ∀ alone : Engine,
      alone.caseSensitive = caseSensitive →
      alone.WorksWith now source scope (first ++ second) →
        (alone.evaluateLog now source scope data).1 = .ok result) batch
      (found caseSensitive now entries (first ++ second)) := by
    rw [found, List.forall₂_map_right_iff]
    refine (mapM_eq_ok.1 read).imp ?_
    intro data entry one alone sensitive' works'
    rw [evaluateLog_eq decided works' one, sensitive']
  refine ⟨_, _, _, ?_, ?_, ?_, found_append caseSensitive now entries first second, rfl, rfl,
    alone, ?_⟩
  · rw [ofBoth]
  · rw [ofFirst]
  · rw [ofSecond]
  · rw [ofBoth]
    exact ⟨rfl, rfl, rfl⟩

/-- A rule with one selection. -/
def ruleOn (id condition : String) (selection : Sigma.Selection) : Sigma.Rule :=
  { (default : Sigma.Rule) with id, detection := ⟨condition, [("sel", selection)], none⟩ }

/-- A rule that finds a word, and one whose condition is none. -/
def foundAndUnread : List Sigma.Rule :=
  [ruleOn "found" "sel" (.keywords ["psexec"]), ruleOn "unread" "sel sel" (.keywords ["psexec"])]

/-- A rule that cannot be evaluated, and one that finds the word. -/
def brokenAndFound : List Sigma.Rule :=
  [ruleOn "broken" "sel" (.other .null), ruleOn "again" "not not sel" (.keywords ["psexec"])]

/-- A source that lists these rules for every scope. -/
def listing (rules : List Sigma.Rule) : Scope → Except Fault (List Sigma.Rule) := fun _ => .ok rules

/-- A log with the word, and one without. -/
def loudAndQuiet : List Value :=
  [.map [(.text "message", .text "psexec")], .map [(.text "message", .text "quiet")]]

theorem evaluateBatch_independent_of_broken_rules :
    ∃ results, ((fresh false 0).evaluateBatch ⟨0⟩ (listing (foundAndUnread ++ brokenAndFound))
        ⟨"o", none⟩ loudAndQuiet).1 = .ok results ∧
      results.map (·.map (·.rule.rule.id)) = [["found", "again"], []] ∧
      ((fresh false 0).evaluateBatch ⟨0⟩ (listing (foundAndUnread ++ brokenAndFound))
        ⟨"o", none⟩ loudAndQuiet).2.evaluationErrors = 2 := by
  have decided : ∀ rule ∈ foundAndUnread ++ brokenAndFound, Decided rule := by decide +kernel
  have works (rules : List Sigma.Rule) :
      (fresh false 0).WorksWith ⟨0⟩ (listing rules) ⟨"o", none⟩ rules :=
    worksWith_fresh false 0 ⟨0⟩ rfl
  have named : (loudAndQuiet.mapM (LogEntry.ofValue ⟨0⟩)).toOption.map (fun entries =>
      ((List.zipWith (· ++ ·) (found false ⟨0⟩ entries foundAndUnread)
          (found false ⟨0⟩ entries brokenAndFound)).map (·.map (·.rule.rule.id)),
        (entries.flatMap fun entry =>
          failing false entry (foundAndUnread ++ brokenAndFound)).length)) =
      some ([["found", "again"], []], 2) := by decide +kernel
  cases read : loudAndQuiet.mapM (LogEntry.ofValue ⟨0⟩) with
  | error fault =>
      rw [read] at named
      cases named
  | ok entries =>
      rw [read] at named
      obtain ⟨names, failures⟩ := Prod.mk.inj (Option.some.inj named)
      obtain ⟨results, _, _, ofBoth, -, -, joined, rfl, rfl, -, -, -, errors⟩ :=
        evaluateBatch_independent decided read rfl rfl rfl (works _) (works _) (works _)
      refine ⟨results, ofBoth, ?_, ?_⟩
      · rw [joined]
        exact names
      · rw [errors]
        change 0 + (entries.flatMap fun entry => failing false entry _).length = 2
        rw [failures]

end LogAlert.Engine
