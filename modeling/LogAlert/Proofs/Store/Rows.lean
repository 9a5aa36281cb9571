/-
# LogAlert.Proofs.Store.Rows -- rules built from their rows

`DetectionRow.Stores` says what a row holds of the rule that it was made of.  A row that stores a
settled rule is built into the merged rule (`rule?_of_stores`).

Rules that were not validated are stored, too, but only those that were read from a document; so
every row is `Sound`.  Building a sound row ends without a fault (`Sound.rule?_total`), and in what
is built the keys of each selection are distinct (`Sound.keysDistinct`).
-/
import LogAlert.Proofs.Sigma.Readable
import LogAlert.Proofs.Sigma.Rebuilt
import LogAlert.Proofs.Store.Growth

set_option autoImplicit false

namespace LogAlert

/-! ## Rows that store a rule -/

/-- The row was made of the rule. -/
structure DetectionRow.Stores (row : DetectionRow) (rule : Sigma.Rule) : Prop where
  sigmaId : row.sigmaId = rule.id
  title : row.title = rule.title
  description : row.description = rule.description
  author : row.author = rule.author
  date : row.date = rule.date
  level : Store.columnText rule.level = .ok row.level
  status : Store.columnText rule.status = .ok row.status
  logsource : Store.column rule.logsource.toValue = .ok row.logsource
  detection : Store.column rule.detection.toValue = .ok row.detection
  tags : row.tags = rule.tags
  references : row.references = rule.references
  falsepositives : row.falsepositives = rule.falsepositives

/-- What is saved is one row that stores the rule, behind the others. -/
theorem Store.saveRule_stores {store after : Store} {ids ids' : Ids} {rule : Sigma.Rule}
    {options : RuleOptions} {id : String}
    (saved : store.saveRule ids rule options = .ok (id, after, ids')) :
    ∃ row : DetectionRow, row.id = id ∧ row.Stores rule ∧
      options.organization = some row.organization ∧ row.project = options.project ∧
      row.conversionStatus = options.conversionStatus ∧
      after = { store with detectionRules := store.detectionRules ++ [row] } := by
  obtain ⟨logsource, ofSource, saved⟩ := bind_eq_ok.1 saved
  obtain ⟨detection, ofDetection, saved⟩ := bind_eq_ok.1 saved
  obtain ⟨level, ofLevel, saved⟩ := bind_eq_ok.1 saved
  obtain ⟨status, ofStatus, saved⟩ := bind_eq_ok.1 saved
  obtain ⟨organization, ofOrganization, saved⟩ := bind_eq_ok.1 saved
  cases saved
  exact ⟨_, rfl,
    ⟨rfl, rfl, rfl, rfl, rfl, ofLevel, ofStatus, ofSource, ofDetection, rfl, rfl, rfl⟩,
    required_eq_ok.1 ofOrganization, rfl, rfl, rfl⟩

namespace DetectionRow

variable {row : DetectionRow} {rule : Sigma.Rule}

/-- A text comes back from its column. -/
theorem ofText?_columnText {v : Value} (text : ∃ s, v = .text s) {column : Option String}
    (stored : Store.columnText v = .ok column) : Value.ofText? column = v := by
  obtain ⟨s, rfl⟩ := text
  cases stored
  rfl

theorem Stores.document_eq (stores : row.Stores rule) (settled : rule.Settled)
    (exact : rule.Exact) : row.document = rule.kept := by
  have detection : row.detection = .map (Value.named rule.detection.parts) := by
    rw [(Store.column_ok stores.detection).1, settled.detection.reread_toValue exact,
      settled.detection.keyed.toValue_eq]
  have source : row.logsource.orElse (.map []) = rule.logsource.toValue := by
    rw [(Store.column_ok stores.logsource).1, rule.logsource.reread_toValue,
      rule.logsource.orElse_toValue]
  have level : Value.ofText? row.level = rule.level :=
    ofText?_columnText (settled.level.imp fun _ => And.right) stores.level
  have status : Value.ofText? row.status = rule.status :=
    ofText?_columnText (settled.status.imp fun _ => And.right) stores.status
  rw [document, Sigma.Rule.kept, stores.sigmaId, if_neg settled.named, stores.title, source,
    detection, level, status, stores.tags, stores.references, stores.falsepositives,
    stores.author, stores.description, stores.date]

/-- **A row that stores a settled rule is built into the merged rule.** -/
theorem rule?_of_stores (stores : row.Stores rule) (settled : rule.Settled)
    (exact : rule.Exact) : row.rule? = .ok (some rule.merged) := by
  have documents := settled.documents_kept
  rw [rule?, stores.document_eq settled exact]
  simp only [Sigma.problems_eq_nil.2 (documents.valid settled), ok_bind, List.isEmpty_nil, if_true,
    documents.draft settled, documents.complete settled]
  rfl

end DetectionRow

/-! ## Sound rows -/

namespace Sigma

/-- If the value is a field map, then it has one entry for each of some constraints. -/
def DistinctFields (v : Value) : Prop :=
  ∀ fields, v = .map fields → ∃ constraints : List Constraint,
    fields.map Prod.fst = constraints.map (fun c => .text c.key) ∧
      (constraints.map Constraint.key).Nodup ∧ ∀ c ∈ constraints, c.Keyed

theorem Selection.distinctFields_toValue {s : Selection} (keyed : s.All Constraint.Keyed) :
    DistinctFields (Json.reread s.toValue) := by
  intro fields same
  cases s with
  | keywords words =>
      rw [toValue, Json.reread_texts] at same
      cases same
  | other v => cases keyed
  | fields constraints =>
      have distinct : ((collapse Constraint.key constraints).map Constraint.key).Nodup :=
        nodup_collapse constraints
      rw [toValue_fields, Json.reread_named (by rwa [List.map_map])] at same
      cases same
      refine ⟨collapse Constraint.key constraints, ?_, distinct,
        fun c member => keyed c (mem_collapse member)⟩
      rw [Value.named, List.map_map, List.map_map, List.map_map]
      rfl

theorem Constraint.key_of_ofEntry {written c : Constraint} (keyed : written.Keyed) {v : Value}
    (read : Constraint.ofEntry (.text written.key) v = .ok c) : c.key = written.key := by
  have shown : (Value.text written.key).display = .ok written.key := rfl
  have parts : given written.modifier = given c.modifier ∧ written.field = c.field := by
    rw [ofEntry, shown, ok_bind, keyed] at read
    cases v <;> cases read <;> exact ⟨rfl, rfl⟩
  rw [key, key, parts.1, parts.2]

/-- What is read from entries has the keys that were written. -/
theorem keys_of_entries {fields : List Value.Entry} {constraints : List Constraint}
    (each : List.Forall₂ (fun entry c => Constraint.ofEntry entry.1 entry.2 = .ok c) fields
      constraints) {written : List Constraint}
    (keys : fields.map Prod.fst = written.map (fun c => .text c.key))
    (keyed : ∀ c ∈ written, c.Keyed) :
    constraints.map Constraint.key = written.map Constraint.key := by
  induction each generalizing written with
  | nil =>
      rw [List.map_eq_nil_iff.1 keys.symm, List.map_nil]
  | @cons entry c fields constraints one others ih =>
      cases written with
      | nil => cases keys
      | cons first rest =>
          rw [List.map_cons, List.map_cons, List.cons.injEq] at keys
          rw [keys.1] at one
          rw [List.map_cons, List.map_cons,
            Constraint.key_of_ofEntry (keyed first List.mem_cons_self) one,
            ih keys.2 fun c member => keyed c (List.mem_cons_of_mem _ member)]

theorem Selection.keysDistinct_of_ofValue {v : Value} {s : Selection} (distinct : DistinctFields v)
    (read : Selection.ofValue v = .ok s) : s.KeysDistinct := by
  unfold Selection.ofValue at read
  split at read
  · cases read
    exact List.nodup_nil
  · obtain ⟨words, -, read⟩ := bind_eq_ok.1 read
    cases read
    trivial
  · rename_i fields
    obtain ⟨constraints, mapped, read⟩ := bind_eq_ok.1 read
    cases read
    obtain ⟨written, keys, nodup, keyed⟩ := distinct fields rfl
    rw [KeysDistinct, keys_of_entries (mapM_eq_ok.1 mapped) keys keyed]
    exact nodup
  · obtain ⟨word, -, read⟩ := bind_eq_ok.1 read
    cases read
    trivial

end Sigma

/-- Log source and detection came back from columns, and the detection is that of a rule. -/
structure DetectionRow.Sound (row : DetectionRow) : Prop where
  source : row.logsource.overlong = false
  short : row.detection.overlong = false
  detection : ∃ parts, row.detection = .map (Value.named parts) ∧
    ∀ part ∈ parts, Sigma.DistinctFields part.2

namespace DetectionRow

variable {row : DetectionRow} {rule : Sigma.Rule}

theorem Stores.sound (stores : row.Stores rule) (keyed : rule.detection.Keyed) : row.Sound := by
  obtain ⟨-, source⟩ := Store.column_ok stores.logsource
  obtain ⟨same, short⟩ := Store.column_ok stores.detection
  refine ⟨source, short, rule.detection.parts.map fun part => (part.1, Json.reread part.2), ?_, ?_⟩
  · rw [same, keyed.toValue_eq, Json.reread_named keyed.distinct_parts]
  · intro part member
    obtain ⟨p, inParts, rfl⟩ := List.mem_map.1 member
    rcases List.mem_append.1 inParts with selection | other
    · obtain ⟨s, inSelections, rfl⟩ := List.mem_map.1 selection
      exact Sigma.Selection.distinctFields_toValue (keyed.keyed s inSelections)
    · obtain ⟨t, text⟩ := Sigma.Detection.text_of_mem_otherParts other
      intro fields same
      rw [text] at same
      cases same

namespace Sound

/-- The document of the row can be shown. -/
theorem overlong_document (sound : row.Sound) : row.document.overlong = false := by
  have texts (items : List String) : (Value.texts items).overlong = false := by
    refine Json.overlongList_eq_false.2 fun v member => ?_
    obtain ⟨s, -, rfl⟩ := List.mem_map.1 member
    rfl
  have optional (text : Option String) : (Value.ofText? text).overlong = false := by
    cases text <;> rfl
  have source : (row.logsource.orElse (.map [])).overlong = false :=
    Value.overlong_orElse sound.source rfl
  simp only [document, Value.overlong, Value.overlongEntries, texts, optional, source, sound.short,
    Bool.or_false]

/-- **A sound row can be built, or holds no valid rule.** -/
theorem rule?_total (sound : row.Sound) : ∃ found, row.rule? = .ok found := by
  have short := sound.overlong_document
  obtain ⟨entries, same⟩ : ∃ entries, row.document = .map entries := ⟨_, rfl⟩
  rw [rule?, same]
  rw [same] at short
  obtain ⟨problems, found⟩ := Sigma.problems_isOk_iff.2 (Sigma.problemTexts_short short)
  cases problems with
  | cons problem more => exact ⟨none, bind_eq_ok.2 ⟨_, found, rfl⟩⟩
  | nil =>
      have valid := Sigma.problems_eq_nil.1 found
      obtain ⟨draft, rule, drafted, completed⟩ :=
        (Sigma.read_isOk_iff valid Sigma.Draft.id).2 (Sigma.ruleTexts_short short)
      refine ⟨some rule, bind_eq_ok.2 ⟨_, found, ?_⟩⟩
      exact bind_eq_ok.2 ⟨draft, drafted, bind_eq_ok.2 ⟨rule, completed, rfl⟩⟩

theorem draft_of_rule? (built : row.rule? = .ok (some rule)) :
    ∃ draft, Sigma.Draft.ofValue row.document = .ok draft ∧ draft.complete draft.id = .ok rule := by
  obtain ⟨problems, -, built⟩ := bind_eq_ok.1 built
  split at built
  · obtain ⟨draft, drafted, built⟩ := bind_eq_ok.1 built
    obtain ⟨rule, completed, built⟩ := bind_eq_ok.1 built
    cases built
    exact ⟨draft, drafted, completed⟩
  · cases built

/-- **What is built from a sound row has distinct keys.** -/
theorem keysDistinct (sound : row.Sound) (built : row.rule? = .ok (some rule)) :
    rule.KeysDistinct := by
  obtain ⟨draft, drafted, completed⟩ := draft_of_rule? built
  obtain ⟨-, -, entries, demanded, selections, -⟩ := Sigma.draft_ok drafted
  obtain ⟨-, detection, -⟩ := Sigma.complete_ok completed
  obtain ⟨parts, same, distinct⟩ := sound.detection
  have demanded' : row.document.demand "detection" = .ok row.detection := rfl
  cases (demanded.symm.trans demanded').trans (congrArg Except.ok same)
  intro part member
  rw [detection] at member
  obtain ⟨entry, inEntries, reads⟩ := Sigma.mem_selectionsOf selections member
  obtain ⟨p, inParts, rfl⟩ := Value.mem_named (List.mem_filter.1 inEntries).1
  exact Sigma.Selection.keysDistinct_of_ofValue (distinct p inParts) reads.body

end Sound

end DetectionRow

end LogAlert
