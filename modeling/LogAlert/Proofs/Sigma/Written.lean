/-
# LogAlert.Proofs.Sigma.Written -- the normalised document of a rule is read as the rule

`Rule.toValue` writes a rule in its normalised form, without the parts that are absent or empty.  It
is a document of the rule in the sense of `Documents`, so what is said there of reading holds for it:
the normalised document of a rule that was read from a valid document is valid, and it is read as the
same rule, whose name is kept (`normalized_reread`).
-/
import LogAlert.Proofs.Sigma.Rebuilt

set_option autoImplicit false

namespace LogAlert.Sigma

/-! ## The parts of a normalised document -/

/-- The part for a text that is present. -/
def optionalPart (key : String) (text : Option String) : List (String × Value) :=
  text.toList.map fun s => (key, .text s)

/-- The part for a list that is not empty. -/
def listPart (key : String) (items : List String) : List (String × Value) :=
  if items.isEmpty then [] else [(key, Value.texts items)]

theorem named_append (parts more : List (String × Value)) :
    Value.named (parts ++ more) = Value.named parts ++ Value.named more := List.map_append

theorem entry_eq_named (key : String) (text : Option String) :
    LogSource.entry key text = Value.named (optionalPart key text) := by
  cases text <;> rfl

theorem listEntry_eq_named (key : String) (items : List String) :
    Rule.listEntry key items = Value.named (listPart key items) := by
  cases items <;> rfl

/-- What stands under the name of an optional text. -/
theorem lookup_optionalPart (name key : String) (text : Option String) :
    (optionalPart key text).lookup name = if name = key then text.map .text else none := by
  cases text with
  | none => simp [optionalPart]
  | some s =>
      by_cases same : name = key
      · simp [optionalPart, same]
      · simp [optionalPart, same, List.lookup_cons, beq_eq_false_iff_ne.2 same]

theorem lookup_listPart (name key : String) (items : List String) :
    (listPart key items).lookup name =
      if name = key ∧ items ≠ [] then some (Value.texts items) else none := by
  cases items with
  | nil => simp [listPart]
  | cons item rest =>
      by_cases same : name = key
      · simp [listPart, same]
      · simp [listPart, same, List.lookup_cons, beq_eq_false_iff_ne.2 same]

theorem getD_map_text (text : Option String) :
    (text.map Value.text).getD .null = .ofText? text := by cases text <;> rfl

/-- A list that is left out because it is empty is read as the empty list. -/
theorem textList_listPart {items : List String} (filled : "" ∉ items) :
    textList ((if items = [] then none else some (Value.texts items)).getD .null) = .ok items := by
  by_cases empty : items = []
  · subst empty
    rfl
  · rw [if_neg empty]
    exact textList_texts filled

namespace Rule

/-- The parts of the normalised document, in their order. -/
def parts (rule : Rule) : List (String × Value) :=
  [("title", .text rule.title), ("id", .text rule.id), ("status", rule.status)] ++
    (optionalPart "description" rule.description ++ (optionalPart "author" rule.author ++
    (optionalPart "date" rule.date ++ (listPart "references" rule.references ++
    (listPart "tags" rule.tags ++ ([("logsource", rule.logsource.toValue),
      ("detection", .map (Value.named rule.detection.parts))] ++
    (listPart "falsepositives" rule.falsepositives ++ [("level", rule.level)])))))))

variable {rule : Rule}

theorem toValue_eq (keyed : rule.detection.Keyed) : rule.toValue = .map (Value.named rule.parts) := by
  rw [toValue, parts, keyed.toValue_eq]
  simp only [entry_eq_named, listEntry_eq_named, named_append, List.append_assoc]
  rfl

/-- What the document has under a name. -/
theorem getOf_toValue (keyed : rule.detection.Keyed) (name : String) :
    rule.toValue.getOf name = .ok ((rule.parts.lookup name).getD .null) := by
  rw [toValue_eq keyed, Value.getOf, Value.get, Value.at?_named]

/-- The normalised document has the parts of the rule; what was left out is read as absent. -/
theorem Settled.documents_toValue (settled : rule.Settled) : Documents rule.toValue rule := by
  have getOf := getOf_toValue settled.detection.keyed
  have tags := textList_listPart settled.tags
  have references := textList_listPart settled.references
  have falsepositives := textList_listPart settled.falsepositives
  constructor
  all_goals
    simp [getOf, parts, List.lookup_append, List.lookup_cons, lookup_optionalPart, lookup_listPart,
      getD_map_text, tags, references, falsepositives]

end Rule

/-! ## Reading the normalised document -/

theorem orFresh_of_named {ids : Ids} {name : String} (named : name ≠ "") :
    ids.orFresh name = (name, ids) := if_neg named

/-- A document of a settled rule with distinct keys is read as the rule, which keeps its name. -/
theorem Documents.ofValue_eq {raw : Value} {rule : Rule} (documents : Documents raw rule)
    (settled : rule.Settled) (distinct : rule.KeysDistinct) (ids : Ids) :
    Rule.ofValue ids raw = (.ok rule, ids) := by
  have completed := documents.complete settled
  rw [Rule.merged_eq_self_iff.2 distinct] at completed
  rw [Rule.ofValue, documents.draft settled]
  dsimp only
  rw [orFresh_of_named settled.named, completed]

/-- **The normalised document of a rule is valid and is read as the rule.**  The rule was read from
any valid document, and no two constraints of one selection have the same key; reading it again
draws no new identifier. -/
theorem normalized_reread (ids ids' : Ids) (raw : Value) (rule : Rule)
    (plain : Text.trim ids.stem = ids.stem) (valid : problems raw = .ok [])
    (read : Rule.ofValue ids raw = (.ok rule, ids')) (distinct : rule.KeysDistinct) :
    problems rule.toValue = .ok [] ∧
      ∀ others : Ids, Rule.ofValue others rule.toValue = (.ok rule, others) := by
  have settled : rule.Settled :=
    settled_of_ofValue (plain ▸ Text.trimmed_trim _) (problems_eq_nil.1 valid) read
  have documents := settled.documents_toValue
  exact ⟨problems_eq_nil.2 (documents.valid settled), documents.ofValue_eq settled distinct⟩

/-- A document without an identifier, with blanks and upper case in a key, a selection that is null,
keywords that are no texts and a list of conditions. -/
def looseDocument : Value :=
  .map [(.text "title", .text " T "), (.text "logsource", .map []), (.text "level", .text ""),
    (.text "tags", .text "attack.t1059"),
    (.text "detection", .map [
      (.text "sel", .map [(.text "image | EndsWith", .list [.text "a", .null]),
        (.text "code", .int 1)]),
      (.text "words", .list [.text "x", .null, .int 5]), (.text "nothing", .null),
      (.text "condition", .list [.text " sel ", .text "words"])])]

theorem normalized_reread_loose : ∃ rule,
    problems looseDocument = .ok [] ∧
      Rule.ofValue ⟨"gen", 0⟩ looseDocument = (.ok rule, ⟨"gen", 1⟩) ∧ rule.KeysDistinct ∧
      problems rule.toValue = .ok [] ∧
      ∀ others : Ids, Rule.ofValue others rule.toValue = (.ok rule, others) := by
  have valid : problems looseDocument = .ok [] := by rfl
  have passes : ((Rule.ofValue ⟨"gen", 0⟩ looseDocument).1.toOption.any
      fun rule => decide rule.KeysDistinct) = true := by decide +kernel
  have drawn : (Rule.ofValue ⟨"gen", 0⟩ looseDocument).2 = ⟨"gen", 1⟩ := by decide +kernel
  cases read : Rule.ofValue ⟨"gen", 0⟩ looseDocument with
  | mk outcome ids =>
      rw [read] at passes drawn
      cases outcome with
      | error fault => cases passes
      | ok rule =>
          have distinct : rule.KeysDistinct := of_decide_eq_true passes
          cases drawn
          exact ⟨rule, valid, rfl, distinct,
            normalized_reread _ _ _ rule (by decide +kernel) valid read distinct⟩

end LogAlert.Sigma
