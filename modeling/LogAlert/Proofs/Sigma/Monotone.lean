/-
# LogAlert.Proofs.Sigma.Monotone -- more fields do not hide a detection

A condition without negations can only gain from further matches (`Condition.Tree.Holds.mono`), and a
selection that matches a log still matches when the log has more fields, since nothing it looks for
is lost (`Selection.matchesRecord_mono`).  So a detection whose condition has no negation, once it
holds of a log, holds of each log with more fields (`Detection.holds_of_more_fields`).  One thing can come
between: among the further fields and the values they are compared with, an integer may be too long
to be shown, and then the evaluation fails (`Detection.not_monotone_of_long`).
-/
import LogAlert.Proofs.Json.Data
import LogAlert.Proofs.Sigma.Matching

set_option autoImplicit false

namespace LogAlert

/-! ## Conditions -/

namespace Condition.Tree

variable {names : List String} {answer more : String → Bool} {t : Tree}

/-- No part of the condition is a negation. -/
def Positive (t : Tree) : Prop := ∀ operand : Tree, .not operand ∉ t.nodes

theorem Positive.of_subset {part : Tree} (positive : t.Positive) (below : part.nodes ⊆ t.nodes) :
    part.Positive :=
  fun operand member => positive operand (below member)

/-- A condition without negations that holds for some answers holds if more of them are positive. -/
theorem Holds.mono (gains : ∀ name ∈ names, answer name = true → more name = true)
    (positive : t.Positive) (holds : t.Holds names answer) : t.Holds names more := by
  induction t with
  | selection identifier =>
      obtain ⟨name, means, yes⟩ := holds
      exact ⟨name, means, gains name means.listed yes⟩
  | not t ih => exact absurd List.mem_cons_self (positive t)
  | and l r left right =>
      have belowLeft : l.nodes ⊆ (Tree.and l r).nodes := by simp [nodes]
      have belowRight : r.nodes ⊆ (Tree.and l r).nodes := by simp [nodes]
      exact ⟨left (positive.of_subset belowLeft) holds.1,
        right (positive.of_subset belowRight) holds.2⟩
  | or l r left right =>
      have belowLeft : l.nodes ⊆ (Tree.or l r).nodes := by simp [nodes]
      have belowRight : r.nodes ⊆ (Tree.or l r).nodes := by simp [nodes]
      exact holds.imp (left (positive.of_subset belowLeft)) (right (positive.of_subset belowRight))
  | quantified pattern count =>
      cases count with
      | none =>
          refine ⟨holds.1, fun name listed selects => ?_⟩
          exact gains name listed (holds.2 name listed selects)
      | some count =>
          obtain ⟨selected, chosen, part, enough, each⟩ := holds
          refine ⟨selected, chosen, part, enough, fun name member => ?_⟩
          exact ⟨(each name member).1, gains name (part.subset member) (each name member).2⟩

end Condition.Tree

namespace Sigma

variable {α : Type} {narrower wider : Record} {caseSensitive : Bool}

/-! ## Logs -/

/-- Each field of the first log is a field of the second one, with the same value. -/
def Within (narrower wider : Record) : Prop :=
  ∀ field ∈ narrower, wider.lookup field.1 = some field.2

theorem Within.lookup (within : Within narrower wider) {name : String} {v : Value}
    (found : narrower.lookup name = some v) : wider.lookup name = some v :=
  within (name, v) (mem_of_lookup found)

theorem Within.textFields (within : Within narrower wider) :
    textFields narrower ⊆ textFields wider := by
  intro text member
  obtain ⟨⟨name, v⟩, inNarrower, isText⟩ := List.mem_filterMap.1 member
  exact List.mem_filterMap.2 ⟨(name, v), mem_of_lookup (within _ inNarrower), isText⟩

/-! ## Selections -/

theorem allOf_eq_true_iff {test : α → Except Fault Bool} {xs : List α} :
    allOf test xs = .ok true ↔ ∀ x ∈ xs, test x = .ok true := by
  induction xs with
  | nil => exact iff_of_true rfl nofun
  | cons x rest ih =>
      rw [List.forall_mem_cons, ← ih, allOf]
      cases test x with
      | error fault => exact iff_of_false nofun fun both => nomatch both.1
      | ok b =>
          cases b with
          | true => exact (and_iff_right rfl).symm
          | false => exact iff_of_false nofun fun both => nomatch both.1

theorem Constraint.holds_mono (within : Within narrower wider) {c : Constraint}
    (holds : c.holds caseSensitive narrower = .ok true) :
    c.holds caseSensitive wider = .ok true := by
  unfold Constraint.holds at holds ⊢
  cases found : narrower.lookup c.field with
  | none => rw [found] at holds; cases holds
  | some v => rwa [within.lookup found, ← found]

theorem matchesKeywords_mono (within : Within narrower wider) {words : List String}
    (found : matchesKeywords caseSensitive narrower words = true) :
    matchesKeywords caseSensitive wider words = true := by
  obtain ⟨word, member, occurs⟩ := List.any_eq_true.1 found
  obtain ⟨filled, somewhere⟩ := Bool.and_eq_true_iff.1 occurs
  obtain ⟨text, inNarrower, here⟩ := List.any_eq_true.1 somewhere
  refine List.any_eq_true.2 ⟨word, member, Bool.and_eq_true_iff.2 ⟨filled, ?_⟩⟩
  exact List.any_eq_true.2 ⟨text, within.textFields inNarrower, here⟩

/-- A selection that matches a log matches it with more fields. -/
theorem Selection.matchesRecord_mono (within : Within narrower wider) {selection : Selection}
    (found : selection.matchesRecord caseSensitive narrower = .ok true) :
    selection.matchesRecord caseSensitive wider = .ok true := by
  cases selection with
  | keywords words =>
      exact congrArg Except.ok (matchesKeywords_mono within (Except.ok.inj found))
  | other value => cases found
  | fields constraints =>
      cases constraints with
      | nil => cases found
      | cons c rest =>
          have each := allOf_eq_true_iff.1 found
          exact allOf_eq_true_iff.2 fun c member => Constraint.holds_mono within (each c member)

/-! ## Detections -/

namespace Detection

variable {d : Detection} {tree : Condition.Tree}

theorem question_mono (within : Within narrower wider) {name : String}
    (found : d.question caseSensitive narrower name = .ok true) :
    d.question caseSensitive wider name = .ok true := by
  unfold question at found ⊢
  cases listed : d.selections.lookup name with
  | none => rw [listed] at found; cases found
  | some selection =>
      rw [listed] at found
      exact Selection.matchesRecord_mono within found

/-- **More fields do not hide a detection.**  If a detection whose condition has no negation holds of
a log, then it holds of each log that has all of its fields with the same values, and possibly more;
unless its evaluation fails because an integer in the rule or in the second log is too long to be
shown. -/
theorem holds_of_more_fields (regular : d.Regular) (positive : tree.Positive)
    (within : Within narrower wider) (holds : d.holds caseSensitive tree narrower = .ok true) :
    d.holds caseSensitive tree wider = .ok true ∨
      d.holds caseSensitive tree wider = .error .overlongInteger ∧
        (LongAmong d.candidates ∨ LongAmong (valuesOf wider)) := by
  have meant : tree.meaning d.names
      (Condition.answerOf (d.question caseSensitive narrower)) = true := by
    rcases holds_cases regular caseSensitive tree narrower with evaluated | ⟨failed, -⟩
    · exact Except.ok.inj (evaluated.symm.trans holds)
    · cases failed.symm.trans holds
  have still : tree.meaning d.names
      (Condition.answerOf (d.question caseSensitive wider)) = true := by
    rw [Condition.Tree.meaning_iff_holds] at meant ⊢
    refine meant.mono (fun name _ yes => ?_) positive
    exact Condition.answerOf_eq_true_iff.2
      (question_mono within (Condition.answerOf_eq_true_iff.1 yes))
  rcases holds_cases regular caseSensitive tree wider with evaluated | failed
  · exact .inl (still ▸ evaluated)
  · exact .inr failed

/-- One of two selections matches: the field `x` is this number, or the field `y` is one. -/
def eitherField (n : Int) : Detection :=
  ⟨"a or b", [("a", .fields [⟨"x", [.int n], none, false⟩]),
    ("b", .fields [⟨"y", [.int 1], none, false⟩])], none⟩

/-- The condition of this detection. -/
def eitherTree : Condition.Tree := .or (.selection "a") (.selection "b")

theorem parse_eitherField (n : Int) :
    Condition.parse (eitherField n).condition = .ok eitherTree := by
  change Condition.parse "a or b" = _
  decide +kernel

theorem positive_eitherTree : eitherTree.Positive := by
  intro operand
  simp [eitherTree, Condition.Tree.nodes]

theorem regular_eitherField (n : Int) : (eitherField n).Regular := by
  simp [eitherField, Regular, Selection.Regular, Selection.All]

theorem holds_of_more_fields_either : (eitherField 2).Regular ∧ eitherTree.Positive ∧
    Within [("y", .int 1)] [("x", .int 1), ("y", .int 1)] ∧
    (eitherField 2).holds false eitherTree [("y", .int 1)] = .ok true ∧
    (eitherField 2).holds false eitherTree [("x", .int 1), ("y", .int 1)] = .ok true := by
  have within : Within [("y", .int 1)] [("x", .int 1), ("y", .int 1)] :=
    List.forall_mem_singleton.2 rfl
  have holds : (eitherField 2).holds false eitherTree [("y", .int 1)] = .ok true := by rfl
  refine ⟨regular_eitherField 2, positive_eitherTree, within, holds, ?_⟩
  rcases holds_of_more_fields (regular_eitherField 2) positive_eitherTree within holds with
    still | ⟨-, long⟩
  · exact still
  · exact absurd long (by decide +kernel)

/-- The first selection cannot be matched if the number is too long to be shown. -/
theorem holds_eitherField_of_long {n : Int} (long : Value.isOverlong n = true) :
    (eitherField n).holds false eitherTree [("x", .int 1), ("y", .int 1)] =
      .error .overlongInteger := by
  have noText : (Value.int n).coerce = .error .overlongInteger := if_pos long
  have first : (eitherField n).question false [("x", .int 1), ("y", .int 1)] "a" =
      .error .overlongInteger := by
    have compared : matchesValue false none (.int 1) (.int n) = .error .overlongInteger := by
      change ((Value.int 1).coerce >>= fun text => (Value.int n).coerce >>= fun pattern =>
        .ok (Pattern.matchesValue false pattern text)) = _
      rw [noText]
      rfl
    change (anyOf (matchesValue false none (.int 1)) [.int n] >>= fun b =>
      if b then .ok true else .ok false) = _
    rw [anyOf, compared]
    rfl
  change (((eitherField n).question false _ "a" >>= _) >>= _) >>= _ = _
  rw [first]
  rfl

/-- **A further field can keep a detection from being evaluated**: its value is compared with an
integer that has no text. -/
theorem not_monotone_of_long :
    ¬ ∀ (d : Detection) (tree : Condition.Tree) (caseSensitive : Bool) (narrower wider : Record),
      d.Regular → Condition.parse d.condition = .ok tree → tree.Positive →
        Within narrower wider → d.holds caseSensitive tree narrower = .ok true →
          d.holds caseSensitive tree wider = .ok true := by
  intro whole
  have long : Value.isOverlong (10 ^ Text.digitLimit) = true := Value.isOverlong_of_le (by simp)
  have within : Within [("y", .int 1)] [("x", .int 1), ("y", .int 1)] :=
    List.forall_mem_singleton.2 rfl
  have still := whole (eitherField (10 ^ Text.digitLimit)) eitherTree false [("y", .int 1)]
    [("x", .int 1), ("y", .int 1)] (regular_eitherField _) (parse_eitherField _)
    positive_eitherTree within rfl
  cases (holds_eitherField_of_long long).symm.trans still

end Detection

end Sigma

end LogAlert
