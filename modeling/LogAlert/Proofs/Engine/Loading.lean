/-
# LogAlert.Proofs.Engine.Loading -- rules that cannot be loaded because of a condition

A condition that cannot be read is reported with an error of syntax: lint warns of it, and the engine
leaves its rule out.  The exception are conditions on which reading halts (`Condition.Halts`): some
beginning of them is an expression that has a numeral of too many digits.  Such a condition is a fault
for lint, and for the engine, which then loads none of the rules that are listed with it.

Main statement: `reported_iff_not_halts`, with the exact condition for each of the three.
-/
import LogAlert.Proofs.Condition.Overlong
import LogAlert.Proofs.Condition.Printing
import LogAlert.Proofs.Engine.Freshness
import LogAlert.Proofs.Sigma.Closed

set_option autoImplicit false

namespace LogAlert

namespace Condition

theorem read_or_reported_iff {text : String} :
    ((∃ tree, parse text = .ok tree) ∨ ∃ e, parse text = .error (.syntaxError e)) ↔
      ¬ Halts text := by
  rw [← parse_overlong_iff]
  cases parse text with
  | ok tree => simp
  | error error => cases error <;> simp

end Condition

namespace Sigma

theorem warnings_isOk_iff_not_halts {rule : Rule} :
    (∃ lint, warnings rule = .ok lint) ↔ ¬ Condition.Halts rule.detection.condition := by
  rw [warnings_isOk_iff, ← Condition.parse_overlong_iff, not_exists]

end Sigma

namespace Engine

theorem compile_isOk_iff {rule : Sigma.Rule} :
    (∃ compiled, compile rule = .ok compiled) ↔ ¬ Condition.Halts rule.detection.condition := by
  rw [← Condition.parse_overlong_iff, compile]
  split <;> rename_i read <;> simp [read]

/-- Rules are listed and compiled if they can be listed and reading halts on none of their
conditions. -/
theorem listed_isOk_iff {source : Scope → Except Fault (List Sigma.Rule)} {scope : Scope} :
    (∃ compiled, (source scope >>= compileAll) = .ok compiled) ↔
      ∃ rules, source scope = .ok rules ∧
        ∀ rule ∈ rules, ¬ Condition.Halts rule.detection.condition := by
  cases source scope with
  | error fault => exact iff_of_false nofun nofun
  | ok rules =>
      simp only [ok_bind, compileAll, bind_pure_isOk_iff, mapM_isOk_iff, compile_isOk_iff,
        Except.ok.injEq, exists_eq_left']

theorem load_isOk_iff (engine : Engine) (now : Time.Instant)
    (source : Scope → Except Fault (List Sigma.Rule)) (scope : Scope) :
    (∃ compiled, (engine.load now source scope).1 = .ok compiled) ↔
      (engine.remembered? now scope).isSome ∨ ∃ rules, source scope = .ok rules ∧
        ∀ rule ∈ rules, ¬ Condition.Halts rule.detection.condition := by
  rw [← listed_isOk_iff, load]
  cases engine.remembered? now scope with
  | some rules => exact iff_of_true ⟨rules, rfl⟩ (.inl rfl)
  | none =>
      rw [Option.isSome_none, or_iff_right Bool.false_ne_true]
      cases source scope >>= compileAll with
      | error fault => exact iff_of_false nofun nofun
      | ok rules => exact iff_of_true ⟨rules, rfl⟩ ⟨rules, rfl⟩

/-- **Conditions are read, or reported with an error of syntax, exactly if reading does not halt on
them.**  The same decides whether lint has an answer for a rule; and the rules of a scope are loaded
exactly if they are remembered, or if they can be listed and reading halts on none of their
conditions. -/
theorem reported_iff_not_halts (text : String) (rule : Sigma.Rule) (engine : Engine)
    (now : Time.Instant) (source : Scope → Except Fault (List Sigma.Rule)) (scope : Scope) :
    (((∃ tree, Condition.parse text = .ok tree) ∨
        ∃ e, Condition.parse text = .error (.syntaxError e)) ↔ ¬ Condition.Halts text) ∧
      ((∃ lint, Sigma.warnings rule = .ok lint) ↔
        ¬ Condition.Halts rule.detection.condition) ∧
      ((∃ compiled, (engine.load now source scope).1 = .ok compiled) ↔
        (engine.remembered? now scope).isSome ∨ ∃ rules, source scope = .ok rules ∧
          ∀ rule ∈ rules, ¬ Condition.Halts rule.detection.condition) :=
  ⟨Condition.read_or_reported_iff, Sigma.warnings_isOk_iff_not_halts,
    load_isOk_iff engine now source scope⟩

/-! ## A numeral that halts -/

/-- A numeral of so many digits. -/
def nines (digits : Nat) : String := String.ofList (List.replicate digits '9')

/-- A number of so many digits in front of a pattern. -/
def ninesOfX (digits : Nat) : String := nines digits ++ " of x"

variable {digits : Nat}

theorem isDigit_of_mem_nines {c : Char} (member : c ∈ (nines digits).toList) : c.isDigit = true := by
  rw [nines, String.toList_ofList] at member
  rw [List.eq_of_mem_replicate member]
  rfl

theorem isWord_nines (positive : 0 < digits) : Condition.IsWord (nines digits) where
  nonempty := by
    rw [nines, String.toList_ofList]
    exact List.ne_nil_of_length_pos (by rwa [List.length_replicate])
  chars _ member := Condition.isWordChar_of_isDigit (isDigit_of_mem_nines member)

theorem kindOf_nines (positive : 0 < digits) : Condition.kindOf (nines digits) = .number := by
  rw [Condition.kindOf_word (isWord_nines positive)]
  exact Condition.wordKind_of_digits (isWord_nines positive).nonempty fun _ => isDigit_of_mem_nines

theorem layout_ninesOfX (positive : 0 < digits) :
    Condition.Layout [nines digits, "of", "x"] (ninesOfX digits).toList := by
  rw [ninesOfX, String.toList_append]
  exact .word (show Condition.Blanks [] by decide) (isWord_nines positive) (by decide)
    (.word (show Condition.Blanks [' '] by decide) (by decide) (by decide)
      (.word (show Condition.Blanks [' '] by decide) (by decide) (by decide)
        (.blank (show Condition.Blanks [] by decide))))

theorem halts_ninesOfX (tooMany : Text.digitLimit < digits) :
    Condition.Halts (ninesOfX digits) := by
  have positive : 0 < digits := Nat.zero_lt_of_lt tooMany
  obtain ⟨tokens, scanned, spelled⟩ := Condition.scan_layout (layout_ninesOfX positive)
  obtain ⟨number, _, rfl, isNumber, written, behind⟩ := Condition.spelled_cons spelled
  obtain ⟨of, _, rfl, isOf, -, last⟩ := Condition.spelled_cons behind
  obtain ⟨pattern, _, rfl, isName, -, none⟩ := Condition.spelled_cons last
  cases none
  rw [kindOf_nines positive] at isNumber
  have isTerm := Condition.IsTerm.count isNumber isOf isName
  refine ⟨_, _, scanned, [number, of, pattern], [], 0, rfl, isTerm.expression, fun short => ?_⟩
  have limit := short number List.mem_cons_self isNumber
  rw [written, nines, String.length_ofList, List.length_replicate] at limit
  exact absurd tooMany (Nat.not_lt.2 limit)

/-- A condition need be neither read nor reported with an error of syntax. -/
theorem long_count_not_reported :
    ¬ ((∃ tree, Condition.parse (ninesOfX 4301) = .ok tree) ∨
      ∃ e, Condition.parse (ninesOfX 4301) = .error (.syntaxError e)) :=
  fun reported => Condition.read_or_reported_iff.1 reported (halts_ninesOfX (by decide))

end Engine

end LogAlert
