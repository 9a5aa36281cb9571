/-
# LogAlert.Proofs.Condition.Meaning -- what a condition means, and what is asked for it

A condition means a proposition on the answers for the selections (`Tree.Holds`): which selections a
name and a pattern stand for is said by `Means` and `Selects`, and `not`, `and`, `or` and the
quantifiers are read as in logic.  Memories and orders do not occur in it.

`Tree.evaluate` asks for answers one after the other, remembers them, and stops early.  Asking is an
operation of any monad here: a note of the question, whatever it does, and then the answer.  What an
evaluation does is said by `Asks`: its effects are those of asking for some listed selections that
were not asked for before, each once, and the remembered answers are those to all that were asked.

* `Tree.evaluate_asks`: a condition is evaluated to its meaning, in this way.
* `Tree.meaning_iff_holds`: the formula for the result and the proposition are the same.
* `Tree.evaluate_asks_once`: both together, for an evaluation from the start.
-/
import LogAlert.Condition.Evaluation
import Mathlib.Data.List.Basic
import Mathlib.Tactic.Common

set_option autoImplicit false

namespace LogAlert.Condition

/-! ## What a condition means -/

/-- The selection that a name stands for is the one with exactly this name, or, if there is none,
the first one whose name differs from it in case only. -/
inductive Means (names : List String) (identifier : String) : String → Prop where
  | exactly (listed : identifier ∈ names) : Means names identifier identifier
  | ignoringCase {before after : List String} {name : String} (unlisted : identifier ∉ names)
      (split : names = before ++ name :: after) (same : Text.lower name = Text.lower identifier)
      (first : ∀ other ∈ before, Text.lower other ≠ Text.lower identifier) :
      Means names identifier name

/-- The pattern stands for the selection of this name, among others: it stands for all selections,
for those that fit its wildcards, or for the one with that name. -/
def Selects (pattern name : String) : Prop :=
  name ∉ reservedNames ∧ (Text.lower pattern = "them" ∨
    if '*' ∈ pattern.toList then Pattern.matchesText Pattern.ofName pattern name = true
    else name = pattern)

instance (pattern name : String) : Decidable (Selects pattern name) :=
  inferInstanceAs (Decidable (_ ∧ _))

/-- The condition holds, given the answers for the selections. -/
def Tree.Holds (names : List String) (answer : String → Bool) : Tree → Prop
  | .selection identifier => ∃ name, Means names identifier name ∧ answer name = true
  | .not t => ¬ t.Holds names answer
  | .and l r => l.Holds names answer ∧ r.Holds names answer
  | .or l r => l.Holds names answer ∨ r.Holds names answer
  | .quantified pattern none =>
    (∃ name ∈ names, Selects pattern name) ∧
      ∀ name ∈ names, Selects pattern name → answer name = true
  | .quantified pattern (some count) =>
    (∃ name ∈ names, Selects pattern name) ∧ ∃ chosen : List String, chosen.Sublist names ∧
      chosen.length = count ∧ ∀ name ∈ chosen, Selects pattern name ∧ answer name = true

theorem resolvedName_eq_some_iff {names : List String} {identifier name : String} :
    resolvedName names identifier = some name ↔ Means names identifier name := by
  unfold resolvedName
  by_cases listed : identifier ∈ names
  · rw [if_pos listed, Option.some.injEq]
    constructor
    · rintro rfl
      exact .exactly listed
    · rintro (_ | ⟨unlisted, -, -, -⟩)
      · rfl
      · exact absurd listed unlisted
  · rw [if_neg listed, List.find?_eq_some_iff_append]
    constructor
    · rintro ⟨same, before, after, split, first⟩
      exact .ignoringCase listed split (of_decide_eq_true same) fun other member => by
        simpa using first other member
    · rintro (isListed | ⟨-, split, same, first⟩)
      · exact absurd isListed listed
      · exact ⟨decide_eq_true same, _, _, split, fun other member => by
          simpa using first other member⟩

theorem selectedNames_eq_filter (pattern : String) (names : List String) :
    selectedNames pattern names = names.filter fun name => Selects pattern name := by
  unfold selectedNames Selects
  by_cases all : Text.lower pattern = "them"
  · simp [all]
  · by_cases wild : '*' ∈ pattern.toList <;> simp [all, wild, Bool.and_comm]

/-- What a name stands for is listed. -/
theorem Means.listed {names : List String} {identifier name : String}
    (means : Means names identifier name) : name ∈ names := by
  cases means with
  | exactly listed => exact listed
  | ignoringCase _ split _ _ => exact split ▸ List.mem_append_right _ List.mem_cons_self

theorem mem_selectedNames {pattern name : String} {names : List String} :
    name ∈ selectedNames pattern names ↔ name ∈ names ∧ Selects pattern name := by
  rw [selectedNames_eq_filter, List.mem_filter, decide_eq_true_eq]

theorem selectedNames_ne_nil_iff {pattern : String} {names : List String} :
    selectedNames pattern names ≠ [] ↔ ∃ name ∈ names, Selects pattern name := by
  rw [ne_eq, List.eq_nil_iff_forall_not_mem]
  simp only [mem_selectedNames, not_forall, not_not]

/-- So many of the selected answers are positive as can be chosen from the list. -/
theorem le_countP_selectedNames_iff {pattern : String} {names : List String}
    {answer : String → Bool} {count : Nat} :
    count ≤ (selectedNames pattern names).countP answer ↔
      ∃ chosen : List String, chosen.Sublist names ∧ chosen.length = count ∧
        ∀ name ∈ chosen, Selects pattern name ∧ answer name = true := by
  rw [selectedNames_eq_filter, List.countP_filter, List.countP_eq_length_filter]
  constructor
  · intro enough
    refine ⟨_, (List.take_sublist count _).trans List.filter_sublist,
      List.length_take_of_le enough, fun name member => ?_⟩
    have kept := (List.mem_filter.1 (List.mem_of_mem_take member)).2
    rw [Bool.and_eq_true, decide_eq_true_eq] at kept
    exact kept.symm
  · rintro ⟨chosen, part, rfl, each⟩
    have kept := part.filter fun name => answer name && decide (Selects pattern name)
    rw [List.filter_eq_self.2 fun name member => by simp [each name member]] at kept
    exact kept.length_le

/-- The formula for the result of a condition is what the condition means. -/
theorem Tree.meaning_iff_holds (names : List String) (answer : String → Bool) (t : Tree) :
    t.meaning names answer = true ↔ t.Holds names answer := by
  induction t with
  | selection identifier =>
      simp only [Tree.meaning, Tree.Holds, ← resolvedName_eq_some_iff]
      cases resolvedName names identifier <;> simp
  | not t ih => rw [Tree.meaning, Tree.Holds, Bool.not_eq_true', ← ih, Bool.not_eq_true]
  | and l r left right => rw [Tree.meaning, Tree.Holds, Bool.and_eq_true, left, right]
  | or l r left right => rw [Tree.meaning, Tree.Holds, Bool.or_eq_true, left, right]
  | quantified pattern count =>
      cases count with
      | none =>
          simp [Tree.meaning, Tree.Holds, selectedNames_ne_nil_iff, mem_selectedNames]
      | some count =>
          simp [Tree.meaning, Tree.Holds, selectedNames_ne_nil_iff, le_countP_selectedNames_iff]

/-! ## What is asked for it -/

section

variable {m : Type → Type} [Monad m]

/-- Asking for a selection: a note of that, with any effect, and the answer. -/
def noting (note : String → m Unit) (answer : String → Bool) (name : String) : m Bool := do
  note name
  return answer name

/-- The answers for the selections that were asked for. -/
def answered (answer : String → Bool) (asked : List String) : Memory :=
  asked.map fun name => (name, answer name)

/-- With the answers for the selections that were asked for before, this asks for some other listed
selections, each once, and yields the value. -/
def Asks (names : List String) (note : String → m Unit) (answer : String → Bool)
    (ask : Memory → m (Bool × Memory)) (value : Bool) : Prop :=
  ∀ before : List String, before.Nodup → ∃ asked : List String, (before ++ asked).Nodup ∧
    asked ⊆ names ∧ ask (answered answer before) = do
      asked.forM note
      return (value, answered answer (before ++ asked))

variable {names : List String} {note : String → m Unit} {answer : String → Bool}

theorem lookup_answered (answer : String → Bool) (asked : List String) (name : String) :
    (answered answer asked).lookup name = if name ∈ asked then some (answer name) else none := by
  induction asked with
  | nil => rfl
  | cons first rest ih =>
      rw [answered, List.map_cons, List.lookup_cons, ← answered, ih]
      by_cases same : name = first
      · simp [same]
      · simp [same, beq_eq_false_iff_ne.2 same]

theorem Asks.congr {ask ask' : Memory → m (Bool × Memory)} {value : Bool}
    (asks : Asks names note answer ask value) (same : ∀ memory, ask' memory = ask memory) :
    Asks names note answer ask' value :=
  funext same ▸ asks

variable [LawfulMonad m]

namespace Asks

/-- Nothing need be asked. -/
theorem known (names : List String) (note : String → m Unit) (answer : String → Bool)
    (value : Bool) : Asks names note answer (fun memory => pure (value, memory)) value :=
  fun before distinct => ⟨[], by rwa [List.append_nil], List.nil_subset _, by simp⟩

/-- One evaluation after the other. -/
theorem bind {first ask : Memory → m (Bool × Memory)} {second : Bool × Memory → m (Bool × Memory)}
    {b c : Bool} (one : Asks names note answer first b)
    (steps : ∀ memory, ask memory = first memory >>= second)
    (two : Asks names note answer (fun memory => second (b, memory)) c) :
    Asks names note answer ask c := by
  intro before distinct
  obtain ⟨asked, distinct', listed, isFirst⟩ := one before distinct
  obtain ⟨behind, distinct'', listed', isSecond⟩ := two _ distinct'
  refine ⟨asked ++ behind, by rwa [← List.append_assoc], List.append_subset.2 ⟨listed, listed'⟩, ?_⟩
  have notes : (asked ++ behind).forM note = asked.forM note >>= fun _ => behind.forM note :=
    List.forM_append
  rw [List.append_assoc] at isSecond
  simp only [steps, isFirst, notes, bind_assoc, pure_bind, isSecond]

theorem askAbout {name : String} (listed : name ∈ names) :
    Asks names note answer (askAbout (noting note answer) name) (answer name) := by
  intro before distinct
  unfold Condition.askAbout
  rw [lookup_answered]
  by_cases known : name ∈ before
  · exact ⟨[], by rwa [List.append_nil], List.nil_subset _, by simp [known]⟩
  · refine ⟨[name], List.nodup_append.2 ⟨distinct, by simp, ?_⟩, by simpa using listed,
      by simp [known, noting, answered]⟩
    rintro other member _ isName rfl
    exact known (List.mem_singleton.1 isName ▸ member)

theorem askAll {selected : List String} (listed : selected ⊆ names) :
    Asks names note answer (askAll (noting note answer) selected) (selected.all answer) := by
  induction selected with
  | nil => exact known names note answer true
  | cons name rest ih =>
      obtain ⟨one, others⟩ := List.cons_subset.1 listed
      refine (askAbout one).bind (fun memory => rfl) ?_
      rw [List.all_cons]
      cases answer name with
      | false => exact known names note answer false
      | true => exact ih others

theorem askCount {selected : List String} (listed : selected ⊆ names) {count : Nat}
    (positive : 0 < count) :
    Asks names note answer (askCount (noting note answer) count selected)
      (decide (count ≤ selected.countP answer)) := by
  induction selected generalizing count with
  | nil =>
      rw [List.countP_nil, decide_eq_false (Nat.not_le.2 positive)]
      exact known names note answer false
  | cons name rest ih =>
      obtain ⟨one, others⟩ := List.cons_subset.1 listed
      refine (askAbout one).bind (fun memory => rfl) ?_
      rw [List.countP_cons]
      cases answer name with
      | false => exact ih others positive
      | true =>
          by_cases last : count ≤ 1
          · simpa [last, Nat.le_add_left_of_le last] using known names note answer true
          · have fewer := ih others (Nat.sub_pos_of_lt (Nat.not_le.1 last))
            simpa [last, Nat.sub_le_iff_le_add] using fewer

/-- A quantifier asks about the selections that its pattern stands for. -/
theorem quantified (pattern : String) (count : Option Nat) :
    Asks names note answer ((Tree.quantified pattern count).evaluate names (noting note answer))
      ((Tree.quantified pattern count).meaning names answer) := by
  have listed : selectedNames pattern names ⊆ names :=
    fun name member => (mem_selectedNames.1 member).1
  cases selected : selectedNames pattern names with
  | nil =>
      have value : (Tree.quantified pattern count).meaning names answer = false := by
        cases count <;> simp [Tree.meaning, selected]
      rw [value]
      exact (known names note answer false).congr fun memory => by simp [Tree.evaluate, selected]
  | cons name rest =>
      rw [selected] at listed
      cases count with
      | none =>
          have value : (Tree.quantified pattern none).meaning names answer =
              (name :: rest).all answer := by
            simp [Tree.meaning, selected]
          rw [value]
          exact (askAll listed).congr fun memory => by simp [Tree.evaluate, selected]
      | some count =>
          have value : (Tree.quantified pattern (some count)).meaning names answer =
              decide (count ≤ (name :: rest).countP answer) := by
            simp [Tree.meaning, selected]
          rw [value]
          cases count with
          | zero =>
              rw [decide_eq_true (Nat.zero_le _)]
              exact (known names note answer true).congr fun memory => by
                simp [Tree.evaluate, selected]
          | succ count =>
              exact (askCount listed count.succ_pos).congr fun memory => by
                simp [Tree.evaluate, selected]

end Asks

/-- **One tree.**  A condition is evaluated to its meaning, by asking for listed selections. -/
theorem Tree.evaluate_asks (names : List String) (note : String → m Unit) (answer : String → Bool)
    (t : Tree) : Asks names note answer (t.evaluate names (noting note answer))
      (t.meaning names answer) := by
  induction t with
  | selection identifier =>
      cases found : resolvedName names identifier with
      | none =>
          simp only [Tree.meaning, found]
          exact (Asks.known names note answer false).congr fun memory => by
            simp [Tree.evaluate, found]
      | some name =>
          have listed := (resolvedName_eq_some_iff.1 found).listed
          simp only [Tree.meaning, found]
          exact (Asks.askAbout listed).congr fun memory => by simp [Tree.evaluate, found]
  | not t ih =>
      rw [Tree.meaning]
      exact ih.bind (fun memory => rfl) (.known names note answer _)
  | and l r left right =>
      rw [Tree.meaning]
      refine left.bind (fun memory => rfl) ?_
      cases l.meaning names answer with
      | false => exact .known names note answer false
      | true => exact right
  | or l r left right =>
      rw [Tree.meaning]
      refine left.bind (fun memory => rfl) ?_
      cases l.meaning names answer with
      | false => exact right
      | true => exact .known names note answer true
  | quantified pattern count => exact .quantified pattern count

/-- **A condition is evaluated to its meaning, and no selection is asked about twice.**  Whatever
asking for a selection does besides giving the answer, evaluating a condition does the same as asking
for some selections one after the other, each of them listed and none of them twice, and then giving
the truth value of what the condition means. -/
theorem Tree.evaluate_asks_once (names : List String) (note : String → m Unit)
    (answer : String → Bool) (t : Tree) :
    ∃ (asked : List String) (value : Bool), asked.Nodup ∧ asked ⊆ names ∧
      (value = true ↔ t.Holds names answer) ∧
      t.evaluate names (noting note answer) [] = do
        asked.forM note
        return (value, answered answer asked) := by
  obtain ⟨asked, distinct, listed, same⟩ := t.evaluate_asks names note answer [] .nil
  exact ⟨asked, _, distinct, listed, t.meaning_iff_holds names answer, same⟩

end

/-- The result of a condition, when these are the answers for the selections. -/
def Tree.value (names : List String) (answer : String → Bool) (t : Tree) : Bool :=
  (t.evaluate (m := Id) names answer []).1

theorem Tree.value_eq_meaning (names : List String) (answer : String → Bool) (t : Tree) :
    t.value names answer = t.meaning names answer := by
  obtain ⟨asked, -, -, same⟩ := t.evaluate_asks (m := Id) names (fun _ => ()) answer [] .nil
  exact congrArg Prod.fst same

/-- Write a name down. -/
def jot (name : String) : StateM (List String) Unit := modify (· ++ [name])

/-- The condition `A and not typo and 1 of *`. -/
def oneOfAll : Tree :=
  .and (.and (.selection "A") (.not (.selection "typo"))) (.quantified "*" (some 1))

/-- Of two selections, the second one matches.  It is asked about first, under another spelling, and
then remembered while the quantifier asks about the other. -/
theorem Tree.evaluate_asks_once_of_oneOfAll :
    ((oneOfAll.evaluate ["b", "a"] (noting jot (· = "a")) []).run []).run =
        ((true, [("a", true), ("b", false)]), ["a", "b"]) ∧
      ∃ (asked : List String) (value : Bool), asked.Nodup ∧ asked ⊆ ["b", "a"] ∧
        (value = true ↔ oneOfAll.Holds ["b", "a"] (· = "a")) ∧
        oneOfAll.evaluate ["b", "a"] (noting jot (· = "a")) [] = do
          asked.forM jot
          return (value, answered (· = "a") asked) :=
  ⟨by decide +kernel, Tree.evaluate_asks_once ["b", "a"] jot (· = "a") oneOfAll⟩

end LogAlert.Condition
