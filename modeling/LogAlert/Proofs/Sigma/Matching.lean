/-
# LogAlert.Proofs.Sigma.Matching -- what keeps a selection from being matched

Matching compares texts, and only one thing can go wrong with it: a value has no text because an
integer in it has too many digits.  `FailsOnly` says that an operation fails with this fault at most,
and only under a condition; each function of matching has its own statement of this kind, in which
the condition is that one of the values it looks at is too long to be shown.  Selections of any other
shape than those of rules are left out (`Selection.Regular`).

A condition asks for some of the selections, so it can fail only with the fault of one of them
(`Condition.Tree.evaluate_cases`).  Main statement: `Detection.holds_cases`.
-/
import LogAlert.Proofs.Condition.Meaning
import LogAlert.Proofs.Sigma.Readable
import LogAlert.Proofs.Value.Entries
import LogAlert.Sigma.Matching

set_option autoImplicit false

namespace LogAlert

/-! ## Conditions whose questions may fail -/

namespace Condition

variable {ε : Type}

/-- The answer to a question that may fail; no answer counts as a negative one. -/
def answerOf (question : String → Except ε Bool) (name : String) : Bool :=
  (question name).toOption.getD false

theorem answerOf_eq_true_iff {question : String → Except ε Bool} {name : String} :
    answerOf question name = true ↔ question name = .ok true := by
  unfold answerOf
  cases question name <;> simp [Except.toOption]

/-- A question that may fail is a note, which may fail, and then its answer. -/
theorem noting_answerOf (question : String → Except ε Bool) :
    noting (fun name => (question name).map fun _ => ()) (answerOf question) = question := by
  funext name
  unfold noting answerOf
  dsimp only
  cases question name <;> rfl

/-- Notes that may fail are all made, or one of them fails. -/
theorem forM_cases (note : String → Except ε Unit) (asked : List String) :
    asked.forM note = .ok () ∨
      ∃ name ∈ asked, ∃ e, note name = .error e ∧ asked.forM note = .error e := by
  induction asked with
  | nil => exact .inl rfl
  | cons first rest ih =>
      have step : (first :: rest).forM note = (note first >>= fun _ => rest.forM note) :=
        List.forM_cons
      rw [step]
      cases made : note first with
      | error e => exact .inr ⟨first, List.mem_cons_self, e, made, rfl⟩
      | ok done =>
          rcases ih with all | ⟨name, member, e, failed, same⟩
          · exact .inl all
          · exact .inr ⟨name, List.mem_cons_of_mem _ member, e, failed, same⟩

/-- A condition is evaluated to its meaning, or it fails like one of the questions. -/
theorem Tree.evaluate_cases (names : List String) (question : String → Except ε Bool) (t : Tree) :
    (∃ memory, t.evaluate names question [] =
        .ok (t.meaning names (answerOf question), memory)) ∨
      ∃ name ∈ names, ∃ e, question name = .error e ∧ t.evaluate names question [] = .error e := by
  obtain ⟨asked, -, listed, same⟩ := t.evaluate_asks names
    (fun name => (question name).map fun _ => ()) (answerOf question) [] .nil
  rw [noting_answerOf] at same
  change t.evaluate names question [] = _ at same
  rcases forM_cases (fun name => (question name).map fun _ => ()) asked with
    made | ⟨name, member, e, failed, stopped⟩
  · rw [made] at same
    exact .inl ⟨_, same⟩
  · rw [stopped] at same
    refine .inr ⟨name, listed member, e, ?_, same⟩
    cases answer : question name with
    | ok b => rw [answer] at failed; cases failed
    | error e' => rw [answer] at failed; cases failed; rfl

end Condition

/-! ## Operations that fail for long integers only -/

/-- The operation fails at most because an integer is too long to be shown, and only if the
condition is true. -/
def FailsOnly {α : Type} (result : Except Fault α) (long : Prop) : Prop :=
  ∀ fault, result = .error fault → fault = .overlongInteger ∧ long

namespace FailsOnly

variable {α β : Type} {result : Except Fault α} {second : α → Except Fault β} {long wider : Prop}

theorem ok (a : α) (long : Prop) : FailsOnly (.ok a) long := nofun

theorem bind (one : FailsOnly result long) (behind : ∀ a, FailsOnly (second a) long) :
    FailsOnly (result >>= second) long := by
  intro fault failed
  rcases bind_eq_error.1 failed with first | ⟨a, -, later⟩
  · exact one fault first
  · exact behind a fault later

/-- A test, and then one of two operations. -/
theorem branch {test : Except Fault Bool} {found missed : Except Fault α}
    (tested : FailsOnly test long) (ifFound : FailsOnly found long)
    (ifMissed : FailsOnly missed long) :
    FailsOnly (test >>= fun b => if b then found else missed) long := by
  refine tested.bind fun b => ?_
  cases b with
  | true => exact ifFound
  | false => exact ifMissed

theorem imp (fails : FailsOnly result long) (weaken : long → wider) : FailsOnly result wider :=
  fun fault failed => ⟨(fails fault failed).1, weaken (fails fault failed).2⟩

theorem isOk (fails : FailsOnly result long) (never : ¬ long) : ∃ a, result = .ok a := by
  cases result with
  | ok a => exact ⟨a, rfl⟩
  | error fault => exact absurd (fails fault rfl).2 never

end FailsOnly

theorem Value.coerce_failsOnly (v : Value) : FailsOnly v.coerce (v.overlong = true) := by
  unfold coerce
  split
  · exact .ok _ _
  · split
    · rintro _ ⟨⟩
      exact ⟨rfl, ‹_›⟩
    · exact .ok _ _

namespace Sigma

/-- One of the values holds an integer that is too long to be shown. -/
def LongAmong (values : List Value) : Prop := ∃ v ∈ values, v.overlong = true

instance (values : List Value) : Decidable (LongAmong values) :=
  inferInstanceAs (Decidable (∃ v ∈ values, v.overlong = true))

theorem not_longAmong {values : List Value} :
    ¬ LongAmong values ↔ ∀ v ∈ values, v.overlong = false := by
  simp [LongAmong]

theorem LongAmong.subset {values more : List Value} (long : LongAmong values)
    (part : values ⊆ more) : LongAmong more := by
  obtain ⟨v, member, overlong⟩ := long
  exact ⟨v, part member, overlong⟩

variable {α : Type} {test : α → Except Fault Bool} {long : Prop} {caseSensitive : Bool}
variable {record : Record}

theorem anyOf_failsOnly {xs : List α} (each : ∀ x ∈ xs, FailsOnly (test x) long) :
    FailsOnly (anyOf test xs) long := by
  induction xs with
  | nil => exact .ok _ _
  | cons x rest ih =>
      obtain ⟨one, others⟩ := List.forall_mem_cons.1 each
      exact one.branch (.ok _ _) (ih others)

theorem allOf_failsOnly {xs : List α} (each : ∀ x ∈ xs, FailsOnly (test x) long) :
    FailsOnly (allOf test xs) long := by
  induction xs with
  | nil => exact .ok _ _
  | cons x rest ih =>
      obtain ⟨one, others⟩ := List.forall_mem_cons.1 each
      exact one.branch (ih others) (.ok _ _)

/-! ## Values -/

section

variable {modifier : Option String} {candidate : Value}

theorem matchesScalar_failsOnly (value : Value) :
    FailsOnly (matchesScalar caseSensitive modifier candidate value)
      (candidate.overlong = true ∨ value.overlong = true) := by
  refine (value.coerce_failsOnly.imp .inr).bind fun text => ?_
  refine (candidate.coerce_failsOnly.imp .inl).bind fun pattern => ?_
  split <;> exact .ok _ _

mutual

theorem matchesCandidate_failsOnly (caseSensitive : Bool) (modifier : Option String)
    (candidate : Value) : (value : Value) →
      FailsOnly (matchesCandidate caseSensitive modifier candidate value)
        (candidate.overlong = true ∨ value.overlong = true)
  | .null => .ok _ _
  | .list items => matchesItem_failsOnly caseSensitive modifier candidate items
  | .pair a b => by
      have either : (Value.pair a b).overlong = true ↔ a.overlong = true ∨ b.overlong = true :=
        Bool.or_eq_true_iff
      have first := matchesCandidate_failsOnly caseSensitive modifier candidate a
      have second := matchesCandidate_failsOnly caseSensitive modifier candidate b
      rw [either]
      exact (first.imp (by tauto)).branch (.ok _ _) (second.imp (by tauto))
  | .bool _ | .int _ | .float _ | .text _ | .bytes _ | .date _ | .time _ | .set _ | .map _ =>
      matchesScalar_failsOnly _

theorem matchesItem_failsOnly (caseSensitive : Bool) (modifier : Option String)
    (candidate : Value) : (items : List Value) →
      FailsOnly (matchesItem caseSensitive modifier candidate items)
        (candidate.overlong = true ∨ Value.overlongList items = true)
  | [] => .ok _ _
  | x :: rest => by
      have either : Value.overlongList (x :: rest) = true ↔
          x.overlong = true ∨ Value.overlongList rest = true := Bool.or_eq_true_iff
      have first := matchesCandidate_failsOnly caseSensitive modifier candidate x
      have others := matchesItem_failsOnly caseSensitive modifier candidate rest
      rw [either]
      exact (first.imp (by tauto)).branch (.ok _ _) (others.imp (by tauto))

end

theorem matchesValue_failsOnly (value : Value) :
    FailsOnly (matchesValue caseSensitive modifier value candidate)
      (candidate.overlong = true ∨ value.overlong = true) := by
  unfold matchesValue
  split
  · exact .ok _ _
  · exact matchesCandidate_failsOnly caseSensitive modifier candidate value

end

/-! ## Selections -/

/-- The values of the fields of a record. -/
def valuesOf (record : Record) : List Value := record.map (·.2)

theorem Constraint.holds_failsOnly (c : Constraint) :
    FailsOnly (c.holds caseSensitive record) (LongAmong c.values ∨ LongAmong (valuesOf record)) := by
  unfold Constraint.holds
  split
  · exact .ok _ _
  · rename_i value found
    refine anyOf_failsOnly fun candidate member => (matchesValue_failsOnly value).imp ?_
    have inRecord : value ∈ valuesOf record :=
      List.mem_map.2 ⟨_, mem_of_lookup found, rfl⟩
    rintro (ofRule | ofLog)
    · exact .inl ⟨candidate, member, ofRule⟩
    · exact .inr ⟨value, inRecord, ofLog⟩

namespace Selection

/-- The selection has one of the two shapes that can be matched. -/
def Regular (selection : Selection) : Prop := selection.All fun _ => True

/-- The values that fields are compared with. -/
def candidates : Selection → List Value
  | .fields constraints => constraints.flatMap (·.values)
  | _ => []

theorem All.regular {selection : Selection} {p : Constraint → Prop} (all : selection.All p) :
    selection.Regular := by
  cases selection with
  | keywords words => trivial
  | fields constraints => exact fun _ _ => trivial
  | other value => exact all.elim

theorem matchesRecord_failsOnly {selection : Selection} (regular : selection.Regular) :
    FailsOnly (selection.matchesRecord caseSensitive record)
      (LongAmong selection.candidates ∨ LongAmong (valuesOf record)) := by
  cases selection with
  | keywords words => exact .ok _ _
  | other value => exact regular.elim
  | fields constraints =>
      have each : ∀ c ∈ constraints, FailsOnly (c.holds caseSensitive record)
          (LongAmong (Selection.fields constraints).candidates ∨ LongAmong (valuesOf record)) := by
        intro c member
        refine c.holds_failsOnly.imp (Or.imp_left fun long => long.subset ?_)
        exact fun v inValues => List.mem_flatMap.2 ⟨c, member, inValues⟩
      cases constraints with
      | nil => exact .ok _ _
      | cons c rest => exact allOf_failsOnly each

end Selection

/-! ## Detections -/

namespace Detection

/-- All selections of the detection can be matched. -/
def Regular (d : Detection) : Prop := ∀ part ∈ d.selections, part.2.Regular

/-- The values that the fields of a log are compared with. -/
def candidates (d : Detection) : List Value := d.selections.flatMap fun part => part.2.candidates

variable {d : Detection}

theorem Keyed.regular (keyed : d.Keyed) : d.Regular :=
  fun part member => (keyed.keyed part member).regular

theorem question_failsOnly (regular : d.Regular) {name : String} (listed : name ∈ d.names) :
    FailsOnly (d.question caseSensitive record name)
      (LongAmong d.candidates ∨ LongAmong (valuesOf record)) := by
  unfold question
  split
  · rename_i selection found
    have member := mem_of_lookup found
    refine (Selection.matchesRecord_failsOnly (regular _ member)).imp
      (Or.imp_left fun long => long.subset ?_)
    exact fun v inSelection => List.mem_flatMap.2 ⟨_, member, inSelection⟩
  · rename_i missing
    obtain ⟨part, member, rfl⟩ := List.mem_map.1 listed
    exact absurd (List.lookup_eq_none_iff.1 missing part member) (by simp)

/-- **A detection is evaluated to the meaning of its condition**, or it fails because an integer of
the rule or of the log is too long to be shown. -/
theorem holds_cases (regular : d.Regular) (caseSensitive : Bool) (tree : Condition.Tree)
    (record : Record) :
    d.holds caseSensitive tree record =
        .ok (tree.meaning d.names (Condition.answerOf (d.question caseSensitive record))) ∨
      d.holds caseSensitive tree record = .error .overlongInteger ∧
        (LongAmong d.candidates ∨ LongAmong (valuesOf record)) := by
  rcases tree.evaluate_cases d.names (d.question caseSensitive record) with
    ⟨memory, evaluated⟩ | ⟨name, listed, fault, failed, stopped⟩
  · exact .inl (by rw [holds, evaluated]; rfl)
  · obtain ⟨rfl, long⟩ := question_failsOnly regular listed fault failed
    exact .inr ⟨by rw [holds, stopped]; rfl, long⟩

theorem holds_isOk (regular : d.Regular) (caseSensitive : Bool) (tree : Condition.Tree)
    (shortRule : ∀ v ∈ d.candidates, v.overlong = false)
    (shortLog : ∀ v ∈ valuesOf record, v.overlong = false) :
    d.holds caseSensitive tree record =
      .ok (tree.meaning d.names (Condition.answerOf (d.question caseSensitive record))) :=
  (holds_cases regular caseSensitive tree record).resolve_right fun failed =>
    failed.2.elim (not_longAmong.2 shortRule) (not_longAmong.2 shortLog)

end Detection

end Sigma

end LogAlert
