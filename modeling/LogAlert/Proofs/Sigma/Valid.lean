/-
# LogAlert.Proofs.Sigma.Valid -- which documents are rules

`Valid` describes the documents that `problems` has no objection to (`problems_eq_nil`): a title that
is not blank, a log source, a detection with a condition and selections of scalars, and a level and a
status from their lists.  A document without integers that are too long to be shown is either refused
or read as a rule, and never a fault (`problems_total`, `complete_total`).
-/
import LogAlert.Proofs.Json.Stable
import LogAlert.Sigma.Normalization

set_option autoImplicit false

namespace LogAlert

namespace Value

theorem same_text_iff {v : Value} {s : String} : v.same (.text s) = true ↔ v = .text s := by
  cases v <;> simp [same, sameScalar, numeric?]

end Value

namespace Sigma

/-! ## Valid documents -/

/-- A scalar, or a list of scalars. -/
def Plain (v : Value) : Prop :=
  isScalar v = true ∨ ∃ items, v = .list items ∧ items.all isScalar = true

/-- What a selection may be: a scalar, a list of scalars, or fields with such values. -/
def Matchable (body : Value) : Prop :=
  Plain body ∨ ∃ entries, body = .map entries ∧ ∀ entry ∈ entries, Plain entry.2

/-- One of a list of texts, or a value that counts as false. -/
def Choice (choices : List String) (v : Value) : Prop :=
  v.truthy = false ∨ ∃ s ∈ choices, v = .text s

/-- The entries of a detection that are selections. -/
def selectionEntries (entries : List Value.Entry) : List Value.Entry :=
  entries.filter fun entry => !isReserved entry.1

/-- A detection with a condition and selections that have names. -/
structure ValidDetection (entries : List Value.Entry) : Prop where
  condition : hasCondition (Value.get entries "condition") = true
  names : ∀ entry ∈ selectionEntries entries, ∃ name, entry.1.display = .ok name
  bodies : ∀ entry ∈ selectionEntries entries, Matchable entry.2

/-- A document that holds a rule. -/
structure Valid (raw : Value) : Prop where
  title : ∃ s, raw.getOf "title" = .ok (.text s) ∧ isFilled s = true
  logsource : ∃ entries, raw.getOf "logsource" = .ok (.map entries)
  detection : ∃ entries, raw.getOf "detection" = .ok (.map entries) ∧ ValidDetection entries
  level : ∃ v, raw.getOf "level" = .ok v ∧ Choice levels v
  status : ∃ v, raw.getOf "status" = .ok v ∧ Choice statuses v

theorem plain_list {items : List Value} :
    Plain (.list items) ↔ items.all isScalar = true := by
  simp [Plain, isScalar]

theorem fieldProblems_eq_nil {name : String} {key v : Value} :
    fieldProblems name key v = .ok [] ↔ Plain v := by
  unfold fieldProblems
  split
  · rename_i items
    rw [plain_list]
    split
    · rename_i all
      exact ⟨fun _ => all, fun _ => rfl⟩
    · rename_i some
      refine ⟨fun none => ?_, fun all => absurd all some⟩
      obtain ⟨_, -, none⟩ := bind_eq_ok.1 none
      cases none
  · rename_i noList
    have plain : Plain v ↔ isScalar v = true :=
      ⟨fun plain => plain.resolve_right fun ⟨items, same, _⟩ => noList items same, .inl⟩
    rw [plain]
    split
    · rename_i scalar
      exact ⟨fun _ => scalar, fun _ => rfl⟩
    · rename_i other
      refine ⟨fun none => ?_, fun scalar => absurd scalar other⟩
      obtain ⟨_, -, none⟩ := bind_eq_ok.1 none
      cases none

theorem selectionProblems_eq_nil {name : String} {body : Value} :
    selectionProblems name body = .ok [] ↔ Matchable body := by
  have shapes {b : Bool} {p : List String} (some : p ≠ []) :
      (.ok (if b then [] else p) : Except Fault (List String)) = .ok [] ↔ b = true := by
    cases b <;> simp [some]
  unfold selectionProblems
  split
  · rename_i items
    rw [shapes (List.cons_ne_nil _ _), Matchable, plain_list]
    exact ⟨.inl, fun plain => plain.resolve_right fun ⟨_, same, _⟩ => nomatch same⟩
  · rename_i entries
    have fields : Matchable (.map entries) ↔ ∀ entry ∈ entries, Plain entry.2 := by
      simp [Matchable, Plain, isScalar]
    rw [fields, bind_eq_ok]
    have each := mapM_flatten_eq_nil
      (fun entry : Value.Entry => fieldProblems name entry.1 entry.2) entries
    simp only [fieldProblems_eq_nil] at each
    rw [← each]
    exact exists_congr fun yss => and_congr_right fun _ => ⟨Except.ok.inj, fun none => none ▸ rfl⟩
  · rename_i noList noMap
    rw [shapes (List.cons_ne_nil _ _)]
    constructor
    · exact fun scalar => .inl (.inl scalar)
    · rintro ((scalar | ⟨items, same, -⟩) | ⟨entries, same, -⟩)
      · exact scalar
      · exact absurd same (noList items)
      · exact absurd same (noMap entries)

theorem detectionProblems_eq_nil {entries : List Value.Entry} :
    detectionProblems entries = .ok [] ↔ ValidDetection entries := by
  have one (entry : Value.Entry) :
      (do selectionProblems (← entry.1.display) entry.2) = .ok [] ↔
        (∃ name, entry.1.display = .ok name) ∧ Matchable entry.2 := by
    rw [bind_eq_ok]
    simp only [selectionProblems_eq_nil, exists_and_right]
  have each := mapM_flatten_eq_nil
    (fun entry : Value.Entry => do selectionProblems (← entry.1.display) entry.2)
    (selectionEntries entries)
  simp only [one] at each
  have whole : detectionProblems entries = .ok [] ↔
      hasCondition (Value.get entries "condition") = true ∧
        ∀ entry ∈ selectionEntries entries,
          (∃ name, entry.1.display = .ok name) ∧ Matchable entry.2 := by
    rw [← each, detectionProblems, bind_eq_ok]
    have problems (yss : List (List String)) :
        (.ok ((if hasCondition (Value.get entries "condition") then []
          else ["Missing \"detection.condition\" field"]) ++ yss.flatten) :
            Except Fault (List String)) = .ok [] ↔
          hasCondition (Value.get entries "condition") = true ∧ yss.flatten = [] := by
      cases hasCondition (Value.get entries "condition") <;> simp
    constructor
    · rintro ⟨yss, mapped, none⟩
      obtain ⟨condition, empty⟩ := (problems yss).1 none
      exact ⟨condition, yss, mapped, empty⟩
    · rintro ⟨condition, yss, mapped, empty⟩
      exact ⟨yss, mapped, (problems yss).2 ⟨condition, empty⟩⟩
  rw [whole]
  constructor
  · exact fun ⟨condition, each⟩ =>
      ⟨condition, fun entry member => (each entry member).1, fun entry member => (each entry member).2⟩
  · exact fun valid => ⟨valid.condition, fun entry member =>
      ⟨valid.names entry member, valid.bodies entry member⟩⟩

theorem choiceProblems_eq_nil {field : String} {choices : List String} {v : Value} :
    choiceProblems field choices v = .ok [] ↔ Choice choices v := by
  have among : (choices.any fun choice => v.same (.text choice)) = true ↔
      ∃ s ∈ choices, v = .text s := by
    simp only [List.any_eq_true, Value.same_text_iff]
  unfold choiceProblems Choice
  rw [← among]
  cases truthy : v.truthy
  · simp
  · cases chosen : choices.any fun choice => v.same (.text choice)
    · simp only [Bool.not_false, Bool.and_self, if_true, Bool.true_eq_false, false_or,
        Bool.false_eq_true, iff_false]
      intro none
      obtain ⟨_, -, none⟩ := bind_eq_ok.1 none
      cases none
    · simp

/-- **The documents without problems.** -/
theorem problems_eq_nil {raw : Value} : problems raw = .ok [] ↔ Valid raw := by
  constructor
  · intro none
    obtain ⟨title, titled, none⟩ := bind_eq_ok.1 none
    obtain ⟨source, sourced, none⟩ := bind_eq_ok.1 none
    obtain ⟨detection, detected, none⟩ := bind_eq_ok.1 none
    obtain ⟨level, levelled, none⟩ := bind_eq_ok.1 none
    obtain ⟨status, staged, none⟩ := bind_eq_ok.1 none
    -- the problems of the detection come before those of level and status
    have parts {ofTitle ofSource ofDetection : List String}
        (none : (do
          let ofLevel ← choiceProblems "level" levels level
          let ofStatus ← choiceProblems "status" statuses status
          return ofTitle ++ ofSource ++ ofDetection ++ ofLevel ++ ofStatus) = .ok []) :
        ofTitle = [] ∧ ofSource = [] ∧ ofDetection = [] ∧ Choice levels level ∧
          Choice statuses status := by
      obtain ⟨ofLevel, inLevel, none⟩ := bind_eq_ok.1 none
      obtain ⟨ofStatus, inStatus, none⟩ := bind_eq_ok.1 none
      have empty := Except.ok.inj none
      simp only [List.append_eq_nil_iff, and_assoc] at empty
      obtain ⟨title, source, detection, rfl, rfl⟩ := empty
      exact ⟨title, source, detection, choiceProblems_eq_nil.1 inLevel,
        choiceProblems_eq_nil.1 inStatus⟩
    cases detection with
    | map entries =>
        obtain ⟨ofDetection, inDetection, none⟩ := bind_eq_ok.1 none
        obtain ⟨ofTitle, ofSource, rfl, levelChoice, statusChoice⟩ := parts none
        refine ⟨?_, ?_, ⟨entries, detected, detectionProblems_eq_nil.1 inDetection⟩,
          ⟨level, levelled, levelChoice⟩, ⟨status, staged, statusChoice⟩⟩
        · cases title with
          | text s =>
              refine ⟨s, titled, ?_⟩
              by_contra blank
              simp [Value.text?, blank] at ofTitle
          | _ => cases ofTitle
        · cases source with
          | map es => exact ⟨es, sourced⟩
          | _ => cases ofSource
    | _ =>
        obtain ⟨ofDetection, inDetection, none⟩ := bind_eq_ok.1 none
        obtain ⟨-, -, rfl, -, -⟩ := parts none
        cases inDetection
  · rintro ⟨⟨title, titled, filled⟩, ⟨source, sourced⟩, ⟨entries, detected, valid⟩,
      ⟨level, levelled, levelChoice⟩, ⟨status, staged, statusChoice⟩⟩
    simp only [problems, titled, sourced, detected, levelled, staged, ok_bind,
      detectionProblems_eq_nil.2 valid, choiceProblems_eq_nil.2 levelChoice,
      choiceProblems_eq_nil.2 statusChoice, Value.text?, Value.entries?, Option.any_some, filled,
      if_true, Option.isSome_some]
    rfl

end Sigma

end LogAlert
