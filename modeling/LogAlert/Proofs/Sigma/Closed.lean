/-
# LogAlert.Proofs.Sigma.Closed -- which texts are read to an end

A text that is read to an end gives a rule and no error, or no rule and an error (`Parsed.Closed`).
Four things keep a text from it: a scalar without a value, an integer with too many digits where a
problem is described or where a rule needs a text, and a number with too many digits in the condition
(`Unreadable`).

Main statement: every other text is read to an end, and these are not (`parse_closed_iff`).
`impossible_date_not_closed` shows one of them.
-/
import LogAlert.Proofs.Sigma.Readable
import LogAlert.Sigma.Document

set_option autoImplicit false

namespace LogAlert.Sigma

/-- There is a rule and no error, or no rule and an error. -/
def Parsed.Closed (parsed : Parsed) : Prop :=
  (∃ rule, parsed.rule? = some rule ∧ parsed.errors = []) ∨
    (parsed.rule? = none ∧ parsed.errors ≠ [])

/-- What keeps a text from being read to an end. -/
inductive Unreadable (text : String) : Prop where
  /-- A scalar of the text has the form of a value that does not exist. -/
  | scalar {fault : Fault} (failed : Yaml.load text = .error (.scalar fault))
  /-- A value that is too long to be shown belongs to the description of the problems. -/
  | problem {entries : List Value.Entry} {v : Value}
      (loaded : Yaml.load text = .ok (.map entries)) (shown : v ∈ problemTexts entries)
      (long : v.overlong = true)
  /-- The rule needs the text of a value that is too long to be shown. -/
  | part {entries : List Value.Entry} {v : Value} (loaded : Yaml.load text = .ok (.map entries))
      (valid : Valid (.map entries)) (needed : v ∈ ruleTexts entries) (long : v.overlong = true)
  /-- The condition has a number with too many digits. -/
  | numeral {entries inner : List Value.Entry} {condition : String} {digits : Nat}
      (loaded : Yaml.load text = .ok (.map entries)) (valid : Valid (.map entries))
      (detected : Value.get entries "detection" = .map inner)
      (written : conditionOf (Value.get inner "condition") = .ok condition)
      (failed : Condition.parse condition = .error (.overlongNumber digits))

/-! ## Looking for warnings -/

theorem warnings_isOk_iff {rule : Rule} : (∃ lint, warnings rule = .ok lint) ↔
    ∀ digits, Condition.parse rule.detection.condition ≠ .error (.overlongNumber digits) := by
  refine bind_pure_isOk_iff.trans ?_
  unfold conditionWarnings
  split
  · rename_i tree read
    exact iff_of_true ⟨_, rfl⟩ fun digits failed => nomatch read.symm.trans failed
  · rename_i e read
    exact iff_of_true ⟨_, rfl⟩ fun digits failed => nomatch read.symm.trans failed
  · rename_i digits read
    exact iff_of_false nofun fun never => never digits read

/-- The condition of a rule is that of its document. -/
theorem condition_of_ofValue {ids ids' : Ids} {entries inner : List Value.Entry} {rule : Rule}
    (read : Rule.ofValue ids (.map entries) = (.ok rule, ids'))
    (detected : Value.get entries "detection" = .map inner) :
    conditionOf (Value.get inner "condition") = .ok rule.detection.condition := by
  obtain ⟨draft, drafted, completed⟩ := ofValue_ok read
  obtain ⟨-, -, inner', demanded, -, condition⟩ := draft_ok drafted
  obtain ⟨-, same, -⟩ := complete_ok completed
  have demanded' : (Value.map entries).demand "detection" = .ok (.map inner) :=
    Value.demand_eq_ok (congrArg Except.ok detected) nofun
  cases demanded.symm.trans demanded'
  exact same ▸ condition

/-! ## Reading a document -/

theorem closed_of_ofDocument {ids ids' : Ids} {raw : Value} {parsed : Parsed}
    (read : ofDocument ids raw = (.ok parsed, ids')) : parsed.Closed := by
  unfold ofDocument at read
  split at read
  · cases read
  · cases read
    exact .inr ⟨rfl, List.cons_ne_nil _ _⟩
  · split at read
    · cases read
    · split at read
      · cases read
      · cases read
        exact .inl ⟨_, rfl, rfl⟩

/-- A document with problems is refused; a valid one becomes a rule, if its condition is read. -/
theorem ofDocument_isOk_iff {ids : Ids} {raw : Value} :
    (∃ parsed, (ofDocument ids raw).1 = .ok parsed) ↔
      (∃ ps, problems raw = .ok ps) ∧ (Valid raw → ∃ rule ids' lint,
        Rule.ofValue ids raw = (.ok rule, ids') ∧ warnings rule = .ok lint) := by
  unfold ofDocument
  split
  · rename_i fault failed
    refine iff_of_false (fun ⟨_, read⟩ => nomatch read) fun ⟨⟨_, listed⟩, _⟩ => ?_
    cases failed.symm.trans listed
  · rename_i problem more listed
    refine iff_of_true ⟨_, rfl⟩ ⟨⟨_, listed⟩, fun valid => ?_⟩
    cases listed.symm.trans (problems_eq_nil.2 valid)
  · rename_i none
    rw [and_iff_right ⟨_, none⟩, forall_prop_of_true (problems_eq_nil.1 none)]
    split
    · rename_i fault names failed
      refine iff_of_false (fun ⟨_, read⟩ => nomatch read) fun ⟨rule, _, _, read, _⟩ => ?_
      cases failed.symm.trans read
    · rename_i rule names read
      split
      · rename_i fault failed
        refine iff_of_false (fun ⟨_, read⟩ => nomatch read) fun ⟨rule', _, lint, read', found⟩ => ?_
        cases read.symm.trans read'
        cases failed.symm.trans found
      · rename_i lint found
        exact iff_of_true ⟨_, rfl⟩ ⟨rule, names, lint, read, found⟩

theorem readable_of_ofDocument {ids : Ids} {text : String} {entries : List Value.Entry}
    (loaded : Yaml.load text = .ok (.map entries)) {parsed : Parsed}
    (read : (ofDocument ids (.map entries)).1 = .ok parsed) : ¬ Unreadable text := by
  obtain ⟨listed, becomes⟩ := ofDocument_isOk_iff.1 ⟨parsed, read⟩
  intro unreadable
  cases unreadable with
  | scalar failed => cases loaded.symm.trans failed
  | problem loaded' shown long =>
      cases loaded.symm.trans loaded'
      exact absurd (problems_isOk_iff.1 listed _ shown) (by simp [long])
  | part loaded' valid needed long =>
      cases loaded.symm.trans loaded'
      obtain ⟨rule, ids', -, ofRaw, -⟩ := becomes valid
      exact absurd ((ofValue_isOk_iff valid ids).1 ⟨rule, ids', ofRaw⟩ _ needed) (by simp [long])
  | numeral loaded' valid detected written failed =>
      cases loaded.symm.trans loaded'
      obtain ⟨rule, ids', lint, ofRaw, found⟩ := becomes valid
      cases written.symm.trans (condition_of_ofValue ofRaw detected)
      exact warnings_isOk_iff.1 ⟨lint, found⟩ _ failed

theorem ofDocument_of_readable {text : String} {entries : List Value.Entry}
    (loaded : Yaml.load text = .ok (.map entries)) (readable : ¬ Unreadable text) (ids : Ids) :
    ∃ parsed, (ofDocument ids (.map entries)).1 = .ok parsed := by
  refine ofDocument_isOk_iff.2 ⟨problems_isOk_iff.2 fun v shown => ?_, fun valid => ?_⟩
  · exact eq_false_of_ne_true fun long => readable (.problem loaded shown long)
  · obtain ⟨rule, ids', ofRaw⟩ := (ofValue_isOk_iff valid ids).2 fun v needed =>
      eq_false_of_ne_true fun long => readable (.part loaded valid needed long)
    obtain ⟨inner, detected, -⟩ := valid.detection
    have ofDetection := Except.ok.inj detected
    obtain ⟨lint, found⟩ := warnings_isOk_iff.2 fun digits failed =>
      readable (.numeral loaded valid ofDetection (condition_of_ofValue ofRaw ofDetection) failed)
    exact ⟨rule, ids', lint, ofRaw, found⟩

theorem parse_of_mapping {text : String} {entries : List Value.Entry}
    (loaded : Yaml.load text = .ok (.map entries)) (ids : Ids) :
    parse ids text = ofDocument ids (.map entries) := by
  rw [parse, document, loaded]

theorem parse_of_scalar {text : String} {fault : Fault}
    (failed : Yaml.load text = .error (.scalar fault)) (ids : Ids) :
    parse ids text = (.error fault, ids) := by
  rw [parse, document, failed]

/-- A text without a mapping is refused with an error, unless one of its scalars has no value. -/
theorem parse_of_noMapping {text : String}
    (noMapping : ∀ entries, Yaml.load text ≠ .ok (.map entries))
    (scalars : ∀ fault, Yaml.load text ≠ .error (.scalar fault)) (ids : Ids) :
    ∃ e : DocumentError, parse ids text = (.ok (.refused [e.message]), ids) := by
  unfold parse document
  cases loaded : Yaml.load text with
  | ok raw =>
      cases raw with
      | map entries => exact absurd loaded (noMapping entries)
      | _ => exact ⟨.noMapping, rfl⟩
  | error e =>
      cases e with
      | malformed => exact ⟨.unreadable, rfl⟩
      | scalar fault => exact absurd loaded (scalars fault)

/-- How reading a text begins: its mapping is looked at, a scalar of it has no value, or it is
refused. -/
theorem load_cases (text : String) :
    (∃ entries, Yaml.load text = .ok (.map entries)) ∨
      (∃ fault, Yaml.load text = .error (.scalar fault)) ∨
      ((∀ entries, Yaml.load text ≠ .ok (.map entries)) ∧
        ∀ fault, Yaml.load text ≠ .error (.scalar fault)) := by
  by_cases mapping : ∃ entries, Yaml.load text = .ok (.map entries)
  · exact .inl mapping
  · by_cases scalar : ∃ fault, Yaml.load text = .error (.scalar fault)
    · exact .inr (.inl scalar)
    · exact .inr (.inr ⟨not_exists.1 mapping, not_exists.1 scalar⟩)

/-- What is read is a rule without errors, or errors without a rule. -/
theorem closed_of_parse {ids ids' : Ids} {text : String} {parsed : Parsed}
    (read : parse ids text = (.ok parsed, ids')) : parsed.Closed := by
  rcases load_cases text with ⟨entries, loaded⟩ | ⟨fault, failed⟩ | ⟨noMapping, scalars⟩
  · exact closed_of_ofDocument (parse_of_mapping loaded ids ▸ read)
  · cases (parse_of_scalar failed ids).symm.trans read
  · obtain ⟨e, refused⟩ := parse_of_noMapping noMapping scalars ids
    cases refused.symm.trans read
    exact .inr ⟨rfl, List.cons_ne_nil _ _⟩

/-- **The texts that are read to an end.**  Whatever the text, and whatever identifiers are handed
out: reading it gives a rule and no error, or no rule and an error, unless the text is unreadable; and
then reading it is a fault. -/
theorem parse_closed_iff (ids : Ids) (text : String) :
    (∃ parsed, (parse ids text).1 = .ok parsed ∧ parsed.Closed) ↔ ¬ Unreadable text := by
  rcases load_cases text with ⟨entries, loaded⟩ | ⟨fault, failed⟩ | ⟨noMapping, scalars⟩
  · have same := parse_of_mapping loaded ids
    constructor
    · rintro ⟨parsed, read, -⟩
      exact readable_of_ofDocument loaded (same ▸ read)
    · intro readable
      obtain ⟨parsed, read⟩ := ofDocument_of_readable loaded readable ids
      rw [← same] at read
      exact ⟨parsed, read, closed_of_parse (Prod.ext read rfl)⟩
  · refine iff_of_false ?_ fun readable => readable (.scalar failed)
    rintro ⟨parsed, read, -⟩
    rw [parse_of_scalar failed ids] at read
    cases read
  · obtain ⟨e, refused⟩ := parse_of_noMapping noMapping scalars ids
    refine iff_of_true ⟨_, congrArg Prod.fst refused, closed_of_parse refused⟩ fun unreadable => ?_
    cases unreadable with
    | scalar failed => exact scalars _ failed
    | problem loaded | part loaded | numeral loaded => exact noMapping _ loaded

/-- A rule with a date that no calendar has. -/
def impossibleDate : String :=
  "title: T\nid: r\nlogsource: \x7b\x7d\ndate: 2025-13-45\ndetection:\n  kw: [x]\n  condition: kw\n"

/-- Reading a text need not end in a rule or errors. -/
theorem impossible_date_not_closed :
    parse ⟨"gen", 0⟩ impossibleDate = (.error (.timeField .month), ⟨"gen", 0⟩) ∧
      ¬ ∃ parsed, (parse ⟨"gen", 0⟩ impossibleDate).1 = .ok parsed ∧ parsed.Closed := by
  have failed : (match Yaml.load impossibleDate with
      | .error e => decide (e = .scalar (.timeField .month))
      | .ok _ => false) = true := by decide +kernel
  have read : parse ⟨"gen", 0⟩ impossibleDate = (.error (.timeField .month), ⟨"gen", 0⟩) := by
    split at failed
    · rename_i e loaded
      exact parse_of_scalar (of_decide_eq_true failed ▸ loaded) _
    · cases failed
  refine ⟨read, ?_⟩
  rintro ⟨parsed, closed, -⟩
  rw [read] at closed
  cases closed

end LogAlert.Sigma
