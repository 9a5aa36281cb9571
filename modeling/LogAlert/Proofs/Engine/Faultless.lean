/-
# LogAlert.Proofs.Engine.Faultless -- rules from texts never fail

A rule can fail for a log only if one of its selections has no proper shape or if an integer is too
long to be shown.  A rule that was read from a text has selections of a proper shape, whatever the
text is (`Sigma.Rule.FromText.regular`).  So without long integers it is always decided whether the
rule applies to a log and whether its detection holds, and an engine that works with such rules and
logs counts no failed evaluations, whatever it is called for (`evaluationErrors_performAll`).

Main statement: `fromText_never_fails`.
-/
import LogAlert.Proofs.Engine.Matches
import LogAlert.Proofs.Log.Short
import LogAlert.Proofs.Sigma.Closed

set_option autoImplicit false

namespace LogAlert

/-! ## Rules from texts -/

namespace Sigma

/-- The rule that is read from a text is that of a document. -/
theorem rule_of_parse {ids ids' : Ids} {text : String} {rule : Rule} {lint : List String}
    (read : parse ids text = (.ok (.rule rule lint), ids')) :
    ∃ raw ids'', Rule.ofValue ids raw = (.ok rule, ids'') := by
  rcases load_cases text with ⟨entries, loaded⟩ | ⟨fault, failed⟩ | ⟨noMapping, scalars⟩
  · rw [parse_of_mapping loaded] at read
    unfold ofDocument at read
    split at read
    · cases read
    · cases read
    · split at read
      · cases read
      · rename_i made
        split at read <;> cases read
        exact ⟨_, _, made⟩
  · cases (parse_of_scalar failed ids).symm.trans read
  · obtain ⟨e, refused⟩ := parse_of_noMapping noMapping scalars ids
    cases refused.symm.trans read

namespace Rule

/-- The rule was read from a text. -/
def FromText (rule : Rule) : Prop :=
  ∃ ids text lint ids', parse ids text = (.ok (.rule rule lint), ids')

theorem FromText.regular {rule : Rule} (fromText : rule.FromText) :
    rule.detection.Regular := by
  obtain ⟨ids, text, lint, ids', read⟩ := fromText
  obtain ⟨raw, ids'', made⟩ := rule_of_parse read
  exact Detection.Keyed.regular (keyed_of_ofValue made)

/-- The rule was read from a text, and no integer that it compares fields with is too long to be
shown. -/
structure Plain (rule : Rule) : Prop where
  fromText : rule.FromText
  short : ∀ v ∈ rule.detection.candidates, v.overlong = false

/-- It is decided whether the detection holds. -/
theorem Plain.holds {rule : Rule} (plain : rule.Plain) {entry : LogEntry} (short : entry.Short)
    (caseSensitive : Bool) (tree : Condition.Tree) :
    ∃ b, rule.detection.holds caseSensitive tree entry.fields = .ok b :=
  ⟨_, Detection.holds_isOk plain.fromText.regular caseSensitive tree plain.short
    (List.forall_mem_map.2 short.fields)⟩

end Rule

end Sigma

namespace Engine

variable {engine : Engine} {now : Time.Instant} {scope : Scope} {entry : LogEntry}
variable {source : Scope → Except Fault (List Sigma.Rule)} {rules : List CompiledRule}

/-! ## Evaluating -/

/-- A rule that was read from a text is evaluated for every short entry. -/
theorem CompiledRule.holds_isOk {compiled : CompiledRule} (plain : compiled.rule.Plain)
    (short : entry.Short) (caseSensitive : Bool) :
    ∃ b, compiled.holds caseSensitive entry entry.fields = .ok b := by
  obtain ⟨covered, decided⟩ := short.covers compiled.rule.logsource
  rw [holds, decided, ok_bind]
  cases covered with
  | true => exact plain.holds short caseSensitive compiled.condition
  | false => exact ⟨false, rfl⟩

theorem failures_evaluate (plain : ∀ compiled ∈ rules, compiled.rule.Plain) (short : entry.Short)
    (caseSensitive : Bool) : (evaluate caseSensitive rules entry).failures = 0 := by
  refine List.countP_eq_zero.2 fun result member => ?_
  obtain ⟨compiled, ofRules, rfl⟩ := List.mem_map.1 member
  obtain ⟨b, decided⟩ := CompiledRule.holds_isOk (plain compiled ofRules) short caseSensitive
  simp only [decided, isFailure, Bool.false_eq_true, not_false_eq_true]

theorem evaluationErrors_evaluateEntry (plain : ∀ compiled ∈ rules, compiled.rule.Plain)
    (short : entry.Short) (engine : Engine) (now : Time.Instant) :
    (engine.evaluateEntry now rules entry).2.evaluationErrors = engine.evaluationErrors :=
  congrArg (engine.evaluationErrors + ·) (failures_evaluate plain short engine.caseSensitive)

theorem evaluationErrors_evaluateAll (plain : ∀ compiled ∈ rules, compiled.rule.Plain)
    (now : Time.Instant) {batch : List Value} (short : ∀ data ∈ batch, data.overlong = false)
    (engine : Engine) :
    (evaluateAll now rules batch engine).2.evaluationErrors = engine.evaluationErrors := by
  induction batch generalizing engine with
  | nil => rfl
  | cons data rest ih =>
      obtain ⟨one, others⟩ := List.forall_mem_cons.1 short
      unfold evaluateAll
      split
      · rfl
      · rename_i entry read
        have shortEntry : entry.Short := LogEntry.short_ofValue one read
        exact (ih others _).trans (evaluationErrors_evaluateEntry plain shortEntry engine now)

/-! ## Rules in memory -/

/-- All rules that are kept are plain. -/
def KeepsPlain (engine : Engine) : Prop :=
  engine.Keeps fun kept => ∀ compiled ∈ kept.rules, compiled.rule.Plain

/-- All rules that the source lists for the scope are plain. -/
def ListsPlain (source : Scope → Except Fault (List Sigma.Rule)) (scope : Scope) : Prop :=
  ∀ rules, source scope = .ok rules → ∀ rule ∈ rules, rule.Plain

theorem ListsPlain.compiled (lists : ListsPlain source scope)
    (listed : (source scope >>= compileAll) = .ok rules) :
    ∀ compiled ∈ rules, compiled.rule.Plain := by
  intro compiled member
  obtain ⟨all, found, compiles⟩ := bind_eq_ok.1 listed
  obtain ⟨rule, ofSource, made⟩ := mem_compileAll compiles member
  exact rule_of_compile_eq_ok made ▸ lists all found rule ofSource

theorem evaluationErrors_remember (engine : Engine) (now : Time.Instant) (scope : Scope)
    (rules : List CompiledRule) :
    (engine.remember now scope rules).evaluationErrors = engine.evaluationErrors := by
  unfold remember
  split <;> rfl

/-- Loading rules counts no errors, and it yields plain rules. -/
theorem load_plain (keeps : engine.KeepsPlain) (lists : ListsPlain source scope)
    (now : Time.Instant) :
    (engine.load now source scope).2.evaluationErrors = engine.evaluationErrors ∧
      ∀ rules, (engine.load now source scope).1 = .ok rules →
        ∀ compiled ∈ rules, compiled.rule.Plain := by
  obtain ⟨kept, found, -, loaded⟩ | ⟨-, ⟨rules, listed, loaded⟩ | ⟨fault, -, loaded⟩⟩ :=
    engine.load_cases now source scope
  · rw [loaded]
    refine ⟨rfl, ?_⟩
    rintro _ ⟨⟩
    exact keeps kept (List.mem_of_find?_eq_some found)
  · rw [loaded]
    refine ⟨evaluationErrors_remember _ now scope rules, ?_⟩
    rintro _ ⟨⟩
    exact lists.compiled listed
  · rw [loaded]
    exact ⟨rfl, nofun⟩

/-! ## Calls -/

/-- What an engine is called for. -/
inductive Call where
  /-- Evaluate a batch of logs. -/
  | batch (now : Time.Instant) (source : Scope → Except Fault (List Sigma.Rule)) (scope : Scope)
    (logs : List Value)
  /-- Evaluate a single log. -/
  | single (now : Time.Instant) (source : Scope → Except Fault (List Sigma.Rule)) (scope : Scope)
    (data : Value)
  /-- Forget the rules of an organization, or all of them. -/
  | invalidate (organization : Option String)

/-- The source lists plain rules for the scope, and the logs have no long integers. -/
def Call.Plain : Call → Prop
  | .batch _ source scope logs => ListsPlain source scope ∧ ∀ data ∈ logs, data.overlong = false
  | .single _ source scope data => ListsPlain source scope ∧ data.overlong = false
  | .invalidate _ => True

/-- The engine after a call. -/
def perform (engine : Engine) : Call → Engine
  | .batch now source scope logs => (engine.evaluateBatch now source scope logs).2
  | .single now source scope data => (engine.evaluateLog now source scope data).2
  | .invalidate organization => engine.invalidate organization

/-- The engine after several calls. -/
def performAll (engine : Engine) (calls : List Call) : Engine := calls.foldl perform engine

theorem KeepsPlain.perform (keeps : engine.KeepsPlain) {call : Call} (plain : call.Plain) :
    (engine.perform call).KeepsPlain := by
  cases call with
  | batch now source scope logs =>
      exact Keeps.evaluateBatch keeps (fun _ listed => plain.1.compiled listed) logs
  | single now source scope data =>
      exact Keeps.evaluateLog keeps (fun _ listed => plain.1.compiled listed) data
  | invalidate organization => exact Keeps.invalidate keeps organization

/-- One call counts no failed evaluation. -/
theorem evaluationErrors_perform (keeps : engine.KeepsPlain) {call : Call} (plain : call.Plain) :
    (engine.perform call).evaluationErrors = engine.evaluationErrors := by
  cases call with
  | batch now source scope logs =>
      obtain ⟨lists, short⟩ := plain
      obtain ⟨same, ofRules⟩ := load_plain keeps lists now
      unfold perform evaluateBatch
      dsimp only
      split
      · rename_i loaded
        rwa [loaded] at same
      · rename_i rules _ loaded
        rw [loaded] at same ofRules
        exact (evaluationErrors_evaluateAll (ofRules rules rfl) now short _).trans same
  | single now source scope data =>
      obtain ⟨lists, short⟩ := plain
      obtain ⟨same, ofRules⟩ := load_plain keeps lists now
      unfold perform evaluateLog
      dsimp only
      split
      · rfl
      · rename_i entry read
        have shortEntry : entry.Short := LogEntry.short_ofValue short read
        split
        · rename_i loaded
          rwa [loaded] at same
        · rename_i rules _ loaded
          rw [loaded] at same ofRules
          exact (evaluationErrors_evaluateEntry (ofRules rules rfl) shortEntry _ now).trans same
  | invalidate organization => cases organization <;> rfl

/-- No number of calls counts a failed evaluation. -/
theorem evaluationErrors_performAll (keeps : engine.KeepsPlain) {calls : List Call}
    (plain : ∀ call ∈ calls, call.Plain) :
    (engine.performAll calls).evaluationErrors = engine.evaluationErrors := by
  induction calls generalizing engine with
  | nil => rfl
  | cons call rest ih =>
      obtain ⟨one, others⟩ := List.forall_mem_cons.1 plain
      exact (ih (keeps.perform one) others).trans (evaluationErrors_perform keeps one)

/-- **Rules from texts never fail.**  For a rule that was read from any text, and for every log that
is accepted, at any time, if no integer in the log or among the values of the rule is too long to be
shown: it is decided whether the rule applies to the log, and whether its detection holds, with
regard to case or without, and whatever tree its condition is read as.  An engine that keeps such
rules only, and is called for such rules and logs only, counts no failed evaluation. -/
theorem fromText_never_fails :
    (∀ rule : Sigma.Rule, rule.FromText →
      (∀ v ∈ rule.detection.candidates, v.overlong = false) →
      ∀ (now : Time.Instant) (data : Value) (entry : LogEntry), data.overlong = false →
        LogEntry.ofValue now data = .ok entry →
        (∃ b, rule.logsource.covers entry = .ok b) ∧
          ∀ (caseSensitive : Bool) (tree : Condition.Tree),
            ∃ b, rule.detection.holds caseSensitive tree entry.fields = .ok b) ∧
    ∀ engine : Engine, engine.KeepsPlain → ∀ calls : List Call, (∀ call ∈ calls, call.Plain) →
      (engine.performAll calls).evaluationErrors = engine.evaluationErrors := by
  constructor
  · intro rule fromText short now data entry shortData accepted
    have shortEntry : entry.Short := LogEntry.short_ofValue shortData accepted
    have plain : rule.Plain := ⟨fromText, short⟩
    exact ⟨shortEntry.covers rule.logsource, fun caseSensitive tree =>
      plain.holds shortEntry caseSensitive tree⟩
  · intro engine keeps calls plain
    exact evaluationErrors_performAll keeps plain

/-- A rule with numbers, a modifier, keywords, and a name in its condition that stands for nothing. -/
def mixedText : String :=
  "title: T\nid: r\nlogsource:\n  product: linux\ndetection:\n  sel:\n    pid: [1, 2.5]\n" ++
    "    tags|contains: x\n  kw: [psexec]\n  condition: 1 of them and not typo\n"

/-- A log of the product with a list in its metadata. -/
def listedLog : Value :=
  .map [(.text "product", .text "linux"), (.text "metadata", .map [
    (.text "pid", .list [.null, .int 1]), (.text "tags", .text "axb")])]

theorem exists_plain_of_mixedText : ∃ rule : Sigma.Rule, rule.Plain := by
  have passes : ((Sigma.parse ⟨"gen", 0⟩ mixedText).1.toOption.bind Sigma.Parsed.rule?).any
      (fun rule => decide (∀ v ∈ rule.detection.candidates, v.overlong = false)) = true := by
    decide +kernel
  rcases whole : Sigma.parse ⟨"gen", 0⟩ mixedText with ⟨outcome, ids⟩
  rw [whole] at passes
  obtain ⟨rule, ofText, short⟩ := (Option.any_eq_true _ _).1 passes
  obtain ⟨parsed, read, isRule⟩ := Option.bind_eq_some_iff.1 ofText
  obtain rfl := toOption_eq_some.1 read
  cases parsed with
  | refused errors => cases isRule
  | rule rule lint =>
      cases isRule
      exact ⟨rule, ⟨_, _, _, _, whole⟩, of_decide_eq_true short⟩

theorem fromText_never_fails_mixed : ∃ (rule : Sigma.Rule) (entry : LogEntry),
    rule.FromText ∧ (∀ v ∈ rule.detection.candidates, v.overlong = false) ∧
      listedLog.overlong = false ∧ LogEntry.ofValue ⟨0⟩ listedLog = .ok entry ∧
      (∃ b, rule.logsource.covers entry = .ok b) ∧
      (∃ b, rule.detection.holds true (.quantified "them" (some 1)) entry.fields = .ok b) ∧
      (fresh false 30).KeepsPlain ∧
      ((fresh false 30).performAll [.batch ⟨0⟩ (listing [rule]) ⟨"o", none⟩ [listedLog],
        .invalidate none, .single ⟨1⟩ (listing [rule]) ⟨"o", none⟩ listedLog]).evaluationErrors =
          0 := by
  obtain ⟨rule, plain⟩ := exists_plain_of_mixedText
  have short : listedLog.overlong = false := by decide
  have accepted : (LogEntry.ofValue ⟨0⟩ listedLog).toBool = true := by decide +kernel
  have keeps : (fresh false 30).KeepsPlain := Keeps.of_noneKept rfl
  have lists : ListsPlain (listing [rule]) ⟨"o", none⟩ := by
    rintro _ ⟨⟩ other member
    exact List.mem_singleton.1 member ▸ plain
  cases read : LogEntry.ofValue ⟨0⟩ listedLog with
  | error fault => rw [read] at accepted; cases accepted
  | ok entry =>
      obtain ⟨covers, holds⟩ :=
        fromText_never_fails.1 rule plain.fromText plain.short ⟨0⟩ listedLog entry short read
      refine ⟨rule, entry, plain.fromText, plain.short, short, rfl, covers, holds true _, keeps, ?_⟩
      refine fromText_never_fails.2 (fresh false 30) keeps _ ?_
      simp only [List.forall_mem_cons, Call.Plain]
      exact ⟨⟨lists, short, nofun⟩, trivial, ⟨lists, short⟩, nofun⟩

end Engine

end LogAlert
