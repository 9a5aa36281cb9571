/-
# LogAlert.Proofs.Sigma.DeadParts -- the parts of a condition that never hold

A part of a condition is dead if it holds under no answers for the selections (`Tree.Dead`).  Lint
looks for dead parts without asking for answers: it warns of names and patterns that stand for no
selection.  Each of its warnings is right, but there is a second way to be dead, which it leaves out:
a number that is larger than the number of the selections that the pattern stands for
(`Tree.Overcounts`).

Main statement: `warned_iff_dead_iff_not_overcounts`, for every part of every condition that can be
read.  `two_of_one_not_warned` shows a dead part without a warning.
-/
import LogAlert.Proofs.Condition.Meaning
import LogAlert.Sigma.Lint

set_option autoImplicit false

namespace LogAlert

namespace Condition.Tree

/-! ## Dead parts -/

/-- The condition holds under no answers for the selections. -/
def Dead (names : List String) (t : Tree) : Prop :=
  ∀ answer : String → Bool, t.value names answer = false

/-- A name or a pattern that stands for none of the selections. -/
def standsForNone (names : List String) : Tree → Bool
  | .selection name => (resolvedName names name).isNone
  | .quantified pattern _ => (selectedNames pattern names).isEmpty
  | _ => false

/-- A pattern that stands for some selections, but for fewer than are to match. -/
def Overcounts (names : List String) : Tree → Prop
  | .quantified pattern (some count) =>
    let selected := names.countP fun name => Selects pattern name
    0 < selected ∧ selected < count
  | _ => False

variable {names : List String} {pattern : String}

theorem dead_selection_iff {identifier : String} :
    (Tree.selection identifier).Dead names ↔ resolvedName names identifier = none := by
  simp only [Dead, value_eq_meaning, meaning]
  cases resolvedName names identifier with
  | none => exact iff_of_true (fun _ => rfl) rfl
  | some name =>
      refine iff_of_false (fun dead => ?_) (Option.some_ne_none name)
      exact Bool.false_ne_true (dead fun _ => true).symm

theorem dead_all_iff :
    (Tree.quantified pattern none).Dead names ↔ selectedNames pattern names = [] := by
  simp only [Dead, value_eq_meaning, meaning]
  constructor
  · intro dead
    simpa using dead fun _ => true
  · intro none answer
    rw [none]
    rfl

/-- At most all answers are positive. -/
theorem dead_count_iff {count : Nat} :
    (Tree.quantified pattern (some count)).Dead names ↔
      selectedNames pattern names = [] ∨ (selectedNames pattern names).length < count := by
  simp only [Dead, value_eq_meaning, meaning]
  constructor
  · intro dead
    simpa [or_iff_not_imp_left] using dead fun _ => true
  · rintro (none | few) answer
    · rw [none]
      rfl
    · have missed : ¬ count ≤ (selectedNames pattern names).countP answer :=
        Nat.not_le.2 (Nat.lt_of_le_of_lt List.countP_le_length few)
      rw [decide_eq_false missed, Bool.and_false]

theorem overcounts_count_iff {count : Nat} :
    (Tree.quantified pattern (some count)).Overcounts names ↔
      selectedNames pattern names ≠ [] ∧ (selectedNames pattern names).length < count := by
  rw [Overcounts, List.countP_eq_length_filter, ← selectedNames_eq_filter,
    List.length_pos_iff_ne_nil]

end Condition.Tree

namespace Sigma

open Condition (Tree)

variable {names : List String} {node other : Tree} {text : String}

/-! ## Warnings -/

/-- What there is to say of a part of a condition that stands for no selection. -/
def deadWarning : Tree → Option String
  | .selection name => some ("Condition references unknown selection \"" ++ name ++ "\"")
  | .quantified pattern _ => some ("Pattern \"" ++ pattern ++ "\" in condition matches no selection")
  | _ => none

/-- There are two ways for a name or a quantifier to be dead. -/
theorem dead_iff (warning : deadWarning node = some text) :
    node.Dead names ↔ node.standsForNone names = true ∨ node.Overcounts names := by
  cases node with
  | selection identifier => simp [Tree.dead_selection_iff, Tree.standsForNone, Tree.Overcounts]
  | quantified pattern count =>
      rw [Tree.standsForNone, List.isEmpty_iff]
      cases count with
      | none => simp [Tree.dead_all_iff, Tree.Overcounts]
      | some count =>
          rw [Tree.dead_count_iff, Tree.overcounts_count_iff, or_and_left, and_iff_right (em _)]
  | not _ | and _ _ | or _ _ => cases warning

theorem not_standsForNone_of_overcounts (many : node.Overcounts names) :
    node.standsForNone names = false := by
  cases node with
  | quantified pattern count =>
      cases count with
      | none => exact many.elim
      | some count => exact List.isEmpty_eq_false_iff.2 (Tree.overcounts_count_iff.1 many).1
  | selection _ | not _ | and _ _ | or _ _ => exact many.elim

theorem nodeWarnings_eq (names : List String) (node : Tree) :
    nodeWarnings names node =
      if node.standsForNone names then (deadWarning node).toList else [] := by
  cases node <;> rfl

theorem deadWarning_eq_of_selection {name : String}
    (same : deadWarning other = deadWarning (.selection name)) : other = .selection name := by
  cases other with
  | selection name' => simpa [deadWarning] using same
  | quantified pattern _ => simp [deadWarning, ← String.toList_inj] at same
  | not _ | and _ _ | or _ _ => cases same

theorem deadWarning_eq_of_quantified {pattern : String} {count : Option Nat}
    (same : deadWarning other = deadWarning (.quantified pattern count)) :
    ∃ count', other = .quantified pattern count' := by
  cases other with
  | selection name => simp [deadWarning, ← String.toList_inj] at same
  | quantified pattern' count' => exact ⟨count', by simpa [deadWarning] using same⟩
  | not _ | and _ _ | or _ _ => cases same

/-- The text of a warning tells which name or pattern it is about. -/
theorem standsForNone_eq_of_deadWarning (one : deadWarning node = some text)
    (two : deadWarning other = some text) :
    other.standsForNone names = node.standsForNone names := by
  have same := two.trans one.symm
  cases node with
  | selection name => rw [deadWarning_eq_of_selection same]
  | quantified pattern count =>
      obtain ⟨_, rfl⟩ := deadWarning_eq_of_quantified same
      rfl
  | not _ | and _ _ | or _ _ => cases one

theorem count_nodeWarnings (warning : deadWarning node = some text) (other : Tree) :
    (nodeWarnings names other).count text =
      if node.standsForNone names ∧ deadWarning other = some text then 1 else 0 := by
  rw [nodeWarnings_eq]
  by_cases about : deadWarning other = some text
  · rw [standsForNone_eq_of_deadWarning warning about, about]
    cases node.standsForNone names <;> simp
  · have isOther : ¬ (node.standsForNone names = true ∧ deadWarning other = some text) :=
      fun both => about both.2
    rw [if_neg isOther, List.count_eq_zero]
    cases other.standsForNone names <;> simp [about]

/-- There is one warning for each part with this text, if one of them stands for no selection. -/
theorem count_flatMap_nodeWarnings (warning : deadWarning node = some text) (nodes : List Tree) :
    (nodes.flatMap (nodeWarnings names)).count text =
      if node.standsForNone names then nodes.countP (deadWarning · = some text) else 0 := by
  induction nodes with
  | nil => exact (ite_self 0).symm
  | cons other rest ih =>
      rw [List.flatMap_cons, List.count_append, count_nodeWarnings warning, ih, List.countP_cons]
      cases node.standsForNone names <;> simp [Nat.add_comm]

theorem not_mem_modifierWarning (warning : deadWarning node = some text) (name : String)
    (c : Constraint) : text ∉ modifierWarning name c := by
  unfold modifierWarning
  split
  · split
    · exact List.not_mem_nil
    · rw [List.mem_singleton]
      rintro rfl
      cases node <;> simp [deadWarning, ← String.toList_inj] at warning
  · exact List.not_mem_nil

/-- The warnings for modifiers are other texts. -/
theorem count_selectionWarnings (warning : deadWarning node = some text)
    (selections : List (String × Selection)) :
    (selections.flatMap fun (name, s) => selectionWarnings name s).count text = 0 := by
  rw [List.count_eq_zero, List.mem_flatMap]
  rintro ⟨⟨name, selection⟩, -, member⟩
  cases selection with
  | fields constraints =>
      obtain ⟨c, -, member⟩ := List.mem_flatMap.1 member
      exact not_mem_modifierWarning warning name c member
  | keywords _ | other _ => exact List.not_mem_nil member

/-! ## Lint -/

/-- What lint says of a rule whose condition is read as this tree. -/
def lintOf (rule : Rule) (tree : Tree) : List String :=
  (rule.detection.selections.flatMap fun (name, s) => selectionWarnings name s) ++
    tree.nodes.flatMap (nodeWarnings rule.detection.names)

variable {rule : Rule} {tree : Tree}

theorem warnings_of_read (read : Condition.parse rule.detection.condition = .ok tree) :
    warnings rule = .ok (lintOf rule tree) := by
  simp only [warnings, conditionWarnings, read]
  rfl

theorem count_lintOf (warning : deadWarning node = some text) :
    (lintOf rule tree).count text = if node.standsForNone rule.detection.names
      then tree.nodes.countP (deadWarning · = some text) else 0 := by
  rw [lintOf, List.count_append, count_selectionWarnings warning, Nat.zero_add,
    count_flatMap_nodeWarnings warning]

theorem mem_lintOf_iff (rule : Rule) (member : node ∈ tree.nodes)
    (warning : deadWarning node = some text) :
    text ∈ lintOf rule tree ↔ node.standsForNone rule.detection.names = true := by
  have some : 0 < tree.nodes.countP (deadWarning · = some text) :=
    List.countP_pos_iff.2 ⟨node, member, decide_eq_true warning⟩
  rw [← List.count_pos_iff, count_lintOf warning]
  cases node.standsForNone rule.detection.names with
  | false => exact iff_of_false (Nat.lt_irrefl 0) Bool.false_ne_true
  | true => exact iff_of_true some rfl

/-- **Lint warns of the dead parts of a condition, except for those that overcount.**  If the
condition of a rule can be read, lint has an answer.  What it says of a part of the condition is
right: the part is dead; and it says so once for each part that this is to be said of.  Being dead
and being warned of come to the same for a part exactly if it does not overcount. -/
theorem warned_iff_dead_iff_not_overcounts
    (read : Condition.parse rule.detection.condition = .ok tree) :
    ∃ lint, warnings rule = .ok lint ∧
      ∀ node ∈ tree.nodes, ∀ text, deadWarning node = some text →
        (text ∈ lint → node.Dead rule.detection.names ∧
          lint.count text = tree.nodes.countP (deadWarning · = some text)) ∧
        ((text ∈ lint ↔ node.Dead rule.detection.names) ↔
          ¬ node.Overcounts rule.detection.names) := by
  refine ⟨lintOf rule tree, warnings_of_read read, fun node member text warning => ?_⟩
  have warned := mem_lintOf_iff rule member warning
  refine ⟨fun isWarned => ⟨(dead_iff warning).2 (.inl (warned.1 isWarned)), ?_⟩, ?_⟩
  · rw [count_lintOf warning, if_pos (warned.1 isWarned)]
  · rw [warned, dead_iff warning]
    constructor
    · intro same many
      have silent := not_standsForNone_of_overcounts many
      exact Bool.false_ne_true (silent.symm.trans (same.2 (.inr many)))
    · intro few
      rw [or_iff_left few]

/-! ## A dead part without a warning -/

/-- The condition `typo or 2 of kw`. -/
def typoOrTwo : Tree := .or (.selection "typo") (.quantified "kw" (some 2))

/-- A rule with this condition, and one selection. -/
def twoOfOne : Rule where
  title := "T"
  id := "r"
  logsource := ⟨none, none, none, none⟩
  detection := ⟨"typo or 2 of kw", [("kw", .keywords ["x"])], none⟩
  level := .text "medium"
  status := .text "stable"
  tags := []
  author := none
  description := none
  date := none
  references := []
  falsepositives := []

theorem warned_iff_dead_iff_not_overcounts_of_twoOfOne :
    Condition.parse twoOfOne.detection.condition = .ok typoOrTwo ∧
      ∃ lint, warnings twoOfOne = .ok lint ∧
        ∀ node ∈ typoOrTwo.nodes, ∀ text, deadWarning node = some text →
          (text ∈ lint → node.Dead twoOfOne.detection.names ∧
            lint.count text = typoOrTwo.nodes.countP (deadWarning · = some text)) ∧
          ((text ∈ lint ↔ node.Dead twoOfOne.detection.names) ↔
            ¬ node.Overcounts twoOfOne.detection.names) :=
  ⟨by decide +kernel,
    warned_iff_dead_iff_not_overcounts (show Condition.parse _ = _ by decide +kernel)⟩

/-- Lint need not warn of a quantifier that never holds. -/
theorem two_of_one_not_warned :
    Condition.parse twoOfOne.detection.condition = .ok typoOrTwo ∧
      warnings twoOfOne = .ok ["Condition references unknown selection \"typo\""] ∧
      Tree.quantified "kw" (some 2) ∈ typoOrTwo.nodes ∧
      (Tree.quantified "kw" (some 2)).Dead twoOfOne.detection.names :=
  ⟨by decide +kernel, by decide +kernel, by decide,
    Tree.dead_count_iff.2 (.inr (by decide +kernel))⟩

end Sigma

end LogAlert
