/-
# LogAlert.Proofs.Sigma.Rebuilt -- rules read from what they were written as

A rule is written part by part, and read again from a document that has its parts under their names
(`Documents`), such as the one in which they are kept (`Rule.kept`).  What is written for a settled
rule comes back unchanged from a column of JSON texts, and the document is valid (`Documents.valid`).
It is read as `Rule.merged` (`Documents.draft`, `Documents.complete`): two constraints of one
selection that have the same key are one entry of the document, so only the later one is left, at
the place of the earlier one.  So a settled rule is read as itself exactly if the keys of each of its
selections are distinct (`Rule.merged_eq_self_iff`).
-/
import LogAlert.Proofs.Json.Floats
import LogAlert.Proofs.Sigma.Settled

set_option autoImplicit false

namespace LogAlert.Sigma

/-! ## Rules with one constraint for each key -/

/-- One constraint for each key: the last one, at the place of the first one. -/
def Selection.merged : Selection → Selection
  | .fields constraints => .fields (collapse Constraint.key constraints)
  | selection => selection

@[inherit_doc Selection.merged]
def Detection.merged (d : Detection) : Detection :=
  { d with selections := d.selections.map fun part => (part.1, part.2.merged) }

@[inherit_doc Selection.merged]
def Rule.merged (rule : Rule) : Rule := { rule with detection := rule.detection.merged }

/-- No two constraints of the selection have the same key, that is, field and modifier. -/
def Selection.KeysDistinct : Selection → Prop
  | .fields constraints => (constraints.map Constraint.key).Nodup
  | _ => True

@[inherit_doc Selection.KeysDistinct]
def Rule.KeysDistinct (rule : Rule) : Prop :=
  ∀ part ∈ rule.detection.selections, part.2.KeysDistinct

instance : DecidablePred Selection.KeysDistinct
  | .fields constraints => inferInstanceAs (Decidable (constraints.map Constraint.key).Nodup)
  | .keywords _ => inferInstanceAs (Decidable True)
  | .other _ => inferInstanceAs (Decidable True)

instance (rule : Rule) : Decidable rule.KeysDistinct :=
  inferInstanceAs (Decidable (∀ part ∈ rule.detection.selections, part.2.KeysDistinct))

theorem Selection.merged_eq_self_iff {s : Selection} : s.merged = s ↔ s.KeysDistinct := by
  cases s with
  | fields constraints =>
      rw [merged, fields.injEq]
      exact collapse_eq_self_iff
  | _ => exact ⟨fun _ => trivial, fun _ => rfl⟩

theorem Rule.merged_eq_self_iff {rule : Rule} : rule.merged = rule ↔ rule.KeysDistinct := by
  constructor
  · intro same part member
    have selections := congrArg (fun r : Rule => r.detection.selections) same
    have each := List.map_inj_left.1 (selections.trans (List.map_id' _).symm) part member
    exact Selection.merged_eq_self_iff.1 (congrArg Prod.snd each)
  · intro distinct
    have each : ∀ part ∈ rule.detection.selections, (part.1, part.2.merged) = part :=
      fun part member => Prod.ext rfl (Selection.merged_eq_self_iff.2 (distinct part member))
    have selections := (List.map_congr_left each).trans (List.map_id' _)
    rw [merged, Detection.merged, selections]

/-! ## Values and constraints -/

theorem reread_scalar {v : Value} (scalar : isScalar v = true) (dated : v.dated = v)
    (exact : v.Exact) : Json.reread v = v := by
  cases v with
  | float x => exact congrArg Value.float (Binary64.reread_of_canonical (exact x (.self x)))
  | null | bool _ | int _ | text _ => rfl
  | date _ | time _ => cases dated
  | _ => cases scalar

namespace Constraint

variable {c : Constraint}

theorem Settled.reread_written (settled : c.Settled) (exact : c.Exact) :
    Json.reread c.written = c.written := by
  have each : ∀ v ∈ c.values, Json.reread v = v := fun v member =>
    reread_scalar (settled.scalars v member) (settled.dated v member) (exact v member)
  unfold written
  split
  · exact Json.reread_list each
  · rename_i single
    obtain ⟨v, same⟩ := settled.single (by simpa using single)
    rw [same] at each ⊢
    exact each v (List.mem_singleton_self v)

theorem Settled.plain_written (settled : c.Settled) : Plain c.written := by
  unfold written
  split
  · exact plain_list.2 (List.all_eq_true.2 settled.scalars)
  · rename_i single
    obtain ⟨v, same⟩ := settled.single (by simpa using single)
    have scalar := settled.scalars v (same ▸ List.mem_singleton_self v)
    rw [same]
    exact .inl scalar

/-- A constraint is read from the entry that is written for it. -/
theorem ofEntry_written (keyed : c.Keyed) (settled : c.Settled) :
    Constraint.ofEntry (.text c.key) c.written = .ok c := by
  have key : (Value.text c.key).display = .ok c.key := rfl
  rw [ofEntry, key, ok_bind, keyed]
  obtain ⟨field, values, modifier, isList⟩ := c
  cases isList with
  | true =>
      have same : values.map Value.dated = values :=
        (List.map_congr_left settled.dated).trans (List.map_id' _)
      simp only [written, if_true, same]
      rfl
  | false =>
      obtain ⟨v, same⟩ := settled.single rfl
      cases same
      have scalar := settled.scalars v (List.mem_singleton_self v)
      have dated := settled.dated v (List.mem_singleton_self v)
      have written : (⟨field, [v], modifier, false⟩ : Constraint).written = v := rfl
      rw [written]
      cases v with
      | list items => cases scalar
      | _ => simp only [dated]; rfl

end Constraint

/-! ## Selections -/

namespace Selection

/-- What is written for the constraint. -/
def part (c : Constraint) : String × Value := (c.key, c.written)

theorem toValue_fields (constraints : List Constraint) :
    (Selection.fields constraints).toValue =
      .map (Value.named ((collapse Constraint.key constraints).map part)) := by
  have merges := Value.foldl_insertIn_named (constraints.map part) []
  have keys : collapse Prod.fst (constraints.map part) =
      (collapse Constraint.key constraints).map part := collapse_map (fun _ _ => .rfl) constraints
  rw [List.foldl_map] at merges
  rw [toValue]
  exact congrArg Value.map (merges.trans (congrArg Value.named keys))

variable {s : Selection}

theorem reread_toValue (settled : s.All Constraint.Settled) (exact : s.All Constraint.Exact) :
    Json.reread s.toValue = s.toValue := by
  cases s with
  | keywords words => exact Json.reread_texts words
  | other v => cases settled
  | fields constraints =>
      rw [toValue_fields]
      refine Json.reread_named_of_stable ?_ fun p member => ?_
      · rw [List.map_map]
        exact nodup_collapse constraints
      · obtain ⟨c, kept, rfl⟩ := List.mem_map.1 member
        exact (settled c (mem_collapse kept)).reread_written (exact c (mem_collapse kept))

theorem matchable_toValue (settled : s.All Constraint.Settled) : Matchable s.toValue := by
  cases s with
  | keywords words =>
      refine .inl (plain_list.2 (List.all_eq_true.2 fun v member => ?_))
      obtain ⟨word, -, rfl⟩ := List.mem_map.1 member
      rfl
  | other v => cases settled
  | fields constraints =>
      rw [toValue_fields]
      refine .inr ⟨_, rfl, fun entry member => ?_⟩
      obtain ⟨p, inParts, rfl⟩ := Value.mem_named member
      obtain ⟨c, kept, rfl⟩ := List.mem_map.1 inParts
      exact (settled c (mem_collapse kept)).plain_written

theorem filter_isNull_texts (items : List String) :
    (items.map Value.text).filter (!·.isNull) = items.map Value.text := by
  refine List.filter_eq_self.2 fun v member => ?_
  obtain ⟨s, -, rfl⟩ := List.mem_map.1 member
  rfl

/-- A selection is read from what is written for it, with one constraint for each key. -/
theorem ofValue_toValue (keyed : s.All Constraint.Keyed) (settled : s.All Constraint.Settled) :
    Selection.ofValue s.toValue = .ok s.merged := by
  cases s with
  | keywords words =>
      have read : ((words.map Value.text).filter (!·.isNull)).mapM (fun item => item.dated.coerce) =
          .ok words := by
        rw [filter_isNull_texts]
        exact mapM_map_eq_ok fun _ _ => rfl
      exact bind_eq_ok.2 ⟨words, read, rfl⟩
  | other v => cases settled
  | fields constraints =>
      have read : (Value.named ((collapse Constraint.key constraints).map part)).mapM
          (fun entry => Constraint.ofEntry entry.1 entry.2) =
            .ok (collapse Constraint.key constraints) := by
        rw [Value.named, List.map_map]
        exact mapM_map_eq_ok fun c kept => Constraint.ofEntry_written
          (keyed c (mem_collapse kept)) (settled c (mem_collapse kept))
      rw [toValue_fields]
      exact bind_eq_ok.2 ⟨_, read, rfl⟩

end Selection

/-! ## Detections -/

namespace Detection

/-- What is written for the selections. -/
def selectionParts (d : Detection) : List (String × Value) :=
  d.selections.map fun part => (part.1, part.2.toValue)

/-- What is written behind the selections. -/
def otherParts (d : Detection) : List (String × Value) :=
  d.timeframe.toList.map (fun t => ("timeframe", .text t)) ++ [("condition", .text d.condition)]

/-- What is written for a detection. -/
def parts (d : Detection) : List (String × Value) := d.selectionParts ++ d.otherParts

variable {d : Detection}

theorem keys_selectionParts (d : Detection) : d.selectionParts.map Prod.fst = d.names := by
  rw [selectionParts, List.map_map]
  rfl

theorem condition_reserved : "condition" ∈ Condition.reservedNames := by decide

theorem timeframe_reserved : "timeframe" ∈ Condition.reservedNames := by decide

theorem reserved_of_mem_otherParts {part : String × Value} (member : part ∈ d.otherParts) :
    part.1 ∈ Condition.reservedNames := by
  rcases List.mem_append.1 member with timeframe | condition
  · obtain ⟨t, -, rfl⟩ := List.mem_map.1 timeframe
    exact timeframe_reserved
  · rw [List.mem_singleton.1 condition]
    exact condition_reserved

theorem text_of_mem_otherParts {part : String × Value} (member : part ∈ d.otherParts) :
    ∃ t, part.2 = .text t := by
  rcases List.mem_append.1 member with timeframe | condition
  · obtain ⟨t, -, rfl⟩ := List.mem_map.1 timeframe
    exact ⟨t, rfl⟩
  · rw [List.mem_singleton.1 condition]
    exact ⟨d.condition, rfl⟩

theorem Keyed.distinct_parts (keyed : d.Keyed) : (d.parts.map Prod.fst).Nodup := by
  rw [parts, List.map_append, keys_selectionParts]
  refine keyed.distinct.append ?_ fun name named other => ?_
  · cases timeframe : d.timeframe <;> simp [otherParts, timeframe]
  · obtain ⟨part, member, rfl⟩ := List.mem_map.1 other
    exact keyed.free _ named (reserved_of_mem_otherParts member)

theorem Keyed.toValue_eq (keyed : d.Keyed) : d.toValue = .map (Value.named d.parts) := by
  have free {name : String} (reserved : name ∈ Condition.reservedNames) :
      name ∉ d.selectionParts.map Prod.fst := by
    rw [keys_selectionParts]
    exact fun member => keyed.free name member reserved
  have selections : (d.selections.map fun part => (Value.text part.1, part.2.toValue)) =
      Value.named d.selectionParts := by
    rw [selectionParts, Value.named, List.map_map]
    rfl
  rw [toValue]
  simp only [selections]
  cases timeframe : d.timeframe with
  | none =>
      have behind := Value.insertIn_named d.selectionParts ("condition", .text d.condition)
      rw [overwrite_of_not_mem (free condition_reserved)] at behind
      rw [parts, otherParts, timeframe]
      exact congrArg Value.map behind
  | some t =>
      have first := Value.insertIn_named d.selectionParts ("timeframe", .text t)
      rw [overwrite_of_not_mem (free timeframe_reserved)] at first
      have second := Value.insertIn_named (d.selectionParts ++ [("timeframe", .text t)])
        ("condition", .text d.condition)
      rw [overwrite_of_not_mem (by
        rw [List.map_append, List.mem_append, not_or]
        exact ⟨free condition_reserved, by simp⟩)] at second
      rw [parts, otherParts, timeframe, ← List.append_assoc]
      simp only [first]
      exact congrArg Value.map second

theorem Settled.reread_toValue (settled : d.Settled)
    (exact : ∀ part ∈ d.selections, part.2.All Constraint.Exact) :
    Json.reread d.toValue = d.toValue := by
  rw [settled.keyed.toValue_eq]
  refine Json.reread_named_of_stable settled.keyed.distinct_parts fun part member => ?_
  rcases List.mem_append.1 member with selection | other
  · obtain ⟨p, inSelections, rfl⟩ := List.mem_map.1 selection
    exact Selection.reread_toValue (settled.settled p inSelections) (exact p inSelections)
  · obtain ⟨t, text⟩ := text_of_mem_otherParts other
    rw [text]
    rfl

/-- The entries that are selections again. -/
theorem Keyed.selectionEntries_parts (keyed : d.Keyed) :
    selectionEntries (Value.named d.parts) = Value.named d.selectionParts := by
  rw [selectionEntries, parts, Value.named, List.map_append, List.filter_append,
    List.filter_eq_self.2, List.filter_eq_nil_iff.2, List.append_nil]
  · rfl
  · intro entry member
    obtain ⟨part, other, rfl⟩ := Value.mem_named member
    simpa [isReserved] using reserved_of_mem_otherParts other
  · intro entry member
    obtain ⟨part, selection, rfl⟩ := Value.mem_named member
    have name : part.1 ∈ d.names := by
      rw [← keys_selectionParts]
      exact List.mem_map_of_mem selection
    simpa [isReserved] using keyed.free part.1 name

theorem Settled.selectionsOf_parts (settled : d.Settled) :
    selectionsOf (Value.named d.parts) = .ok d.merged.selections := by
  refine selectionsOf_eq_ok.2 ⟨d.merged.selections, ?_, collapse_of_nodup ?_⟩
  · rw [settled.keyed.selectionEntries_parts, selectionParts, Value.named, List.map_map, merged,
      List.forall₂_map_left_iff, List.forall₂_map_right_iff, List.forall₂_same]
    exact fun part member => ⟨rfl, Selection.ofValue_toValue (settled.keyed.keyed part member)
      (settled.settled part member)⟩
  · rw [merged, List.map_map]
    exact settled.keyed.distinct

theorem Keyed.get_parts (keyed : d.Keyed) {name : String} (reserved : name ∈ Condition.reservedNames) :
    Value.get (Value.named d.parts) name = Value.get (Value.named d.otherParts) name := by
  refine Value.get_named_append _ _ ?_
  rw [keys_selectionParts]
  exact fun member => keyed.free name member reserved

theorem Keyed.get_condition (keyed : d.Keyed) :
    Value.get (Value.named d.parts) "condition" = .text d.condition := by
  rw [keyed.get_parts condition_reserved, otherParts]
  cases d.timeframe <;> rfl

theorem Keyed.get_timeframe (keyed : d.Keyed) :
    Value.get (Value.named d.parts) "timeframe" = .ofText? d.timeframe := by
  rw [keyed.get_parts timeframe_reserved, otherParts]
  cases d.timeframe <;> rfl

theorem Settled.valid_parts (settled : d.Settled) : ValidDetection (Value.named d.parts) := by
  refine ⟨?_, fun entry member => ?_, fun entry member => ?_⟩
  · rw [settled.keyed.get_condition]
    exact settled.filled
  all_goals
    rw [settled.keyed.selectionEntries_parts] at member
    obtain ⟨part, selection, rfl⟩ := Value.mem_named member
  · exact ⟨part.1, rfl⟩
  · obtain ⟨p, inSelections, rfl⟩ := List.mem_map.1 selection
    exact Selection.matchable_toValue (settled.settled p inSelections)

end Detection

/-! ## Log sources -/

theorem LogSource.reread_toValue (source : LogSource) :
    Json.reread source.toValue = source.toValue := by
  obtain ⟨product, service, category, definition⟩ := source
  cases product <;> cases service <;> cases category <;> cases definition <;> rfl

theorem LogSource.ofValue_toValue (source : LogSource) :
    LogSource.ofValue source.toValue = .ok source := by
  obtain ⟨product, service, category, definition⟩ := source
  cases product <;> cases service <;> cases category <;> cases definition <;> rfl

/-! ## Lists of texts and optional texts -/

theorem textList_texts {items : List String} (filled : "" ∉ items) :
    textList (Value.texts items) = .ok items := by
  have read : ((items.map Value.text).filter (!·.isNull)).mapM Value.coerce = .ok items := by
    rw [Selection.filter_isNull_texts]
    exact mapM_map_eq_ok fun _ _ => rfl
  have kept : items.filter (· ≠ "") = items :=
    List.filter_eq_self.2 fun s member => decide_eq_true fun empty => filled (empty ▸ member)
  exact bind_eq_ok.2 ⟨items, read, congrArg Except.ok kept⟩

theorem optionalText_ofText? (text : Option String) :
    optionalText (.ofText? text) = .ok text := by
  cases text <;> rfl

/-! ## Rules -/

/-- A text of a list without an empty one is a choice, and no default takes its place. -/
theorem choice_text {choices : List String} (filled : "" ∉ choices) {v : Value}
    (choice : ∃ s ∈ choices, v = .text s) (default : Value) :
    Choice choices v ∧ v.orElse default = v := by
  obtain ⟨s, listed, rfl⟩ := choice
  have nonempty : s ≠ "" := fun empty => filled (empty ▸ listed)
  have truthy : (Value.text s).truthy = true := bne_iff_ne.2 nonempty
  exact ⟨.inr ⟨s, listed, rfl⟩, if_pos truthy⟩

theorem LogSource.orElse_toValue (source : LogSource) :
    source.toValue.orElse (.map []) = source.toValue := by
  unfold Value.orElse
  split
  · rfl
  · rename_i falsy
    cases entries : source.toValue with
    | map es =>
        rw [entries] at falsy
        have none : es = [] := by simpa [Value.truthy] using falsy
        rw [none]
    | _ => cases entries

theorem dated_ofText? (text : Option String) :
    (Value.ofText? text).dated = .ofText? text := by cases text <;> rfl

theorem coerce_text (s : String) : (Value.text s).coerce = .ok s := rfl

/-- The document has the parts of the rule under their names. -/
structure Documents (raw : Value) (rule : Rule) : Prop where
  title : raw.getOf "title" = .ok (.text rule.title)
  id : raw.getOf "id" = .ok (.text rule.id)
  logsource : raw.getOf "logsource" = .ok rule.logsource.toValue
  detection : raw.getOf "detection" = .ok (.map (Value.named rule.detection.parts))
  level : raw.getOf "level" = .ok rule.level
  status : raw.getOf "status" = .ok rule.status
  tags : ∃ v, raw.getOf "tags" = .ok v ∧ textList v = .ok rule.tags
  references : ∃ v, raw.getOf "references" = .ok v ∧ textList v = .ok rule.references
  falsepositives : ∃ v, raw.getOf "falsepositives" = .ok v ∧ textList v = .ok rule.falsepositives
  author : raw.getOf "author" = .ok (.ofText? rule.author)
  description : raw.getOf "description" = .ok (.ofText? rule.description)
  date : raw.getOf "date" = .ok (.ofText? rule.date)

section

variable {raw : Value} {rule : Rule}

/-- A document of a settled rule is valid. -/
theorem Documents.valid (documents : Documents raw rule) (settled : rule.Settled) : Valid raw := by
  have inLevels := (choice_text (by decide) settled.level .null).1
  have inStatuses := (choice_text (by decide) settled.status .null).1
  exact ⟨⟨_, documents.title, settled.filled⟩, ⟨_, documents.logsource⟩,
    ⟨_, documents.detection, settled.detection.valid_parts⟩, ⟨_, documents.level, inLevels⟩,
    ⟨_, documents.status, inStatuses⟩⟩

theorem Documents.draft (documents : Documents raw rule) (settled : rule.Settled) :
    Draft.ofValue raw = .ok ⟨raw, rule.detection.merged, rule.id⟩ := by
  have demanded := Value.demand_eq_ok documents.detection nofun
  have condition : conditionOf (.text rule.detection.condition) = .ok rule.detection.condition :=
    congrArg Except.ok settled.detection.trimmed
  simp only [Draft.ofValue, demanded, ok_bind, Value.itemsOf,
    settled.detection.selectionsOf_parts, settled.detection.keyed.get_condition, condition,
    settled.detection.keyed.get_timeframe, optionalText_ofText?, documents.id, coerce_text,
    settled.id]
  rfl

theorem Documents.complete (documents : Documents raw rule) (settled : rule.Settled) :
    Draft.complete ⟨raw, rule.detection.merged, rule.id⟩ rule.id = .ok rule.merged := by
  have demanded := Value.demand_eq_ok documents.title nofun
  have title : (Value.text rule.title).trimmed = .ok rule.title :=
    congrArg Except.ok settled.title
  have level := (choice_text (by decide) settled.level (.text "medium")).2
  have status := (choice_text (by decide) settled.status (.text "stable")).2
  obtain ⟨_, ofTags, tags⟩ := documents.tags
  obtain ⟨_, ofReferences, references⟩ := documents.references
  obtain ⟨_, ofPositives, positives⟩ := documents.falsepositives
  simp only [Draft.complete, demanded, ok_bind, title, documents.logsource,
    rule.logsource.orElse_toValue, rule.logsource.ofValue_toValue, documents.level, level,
    documents.status, status, ofTags, tags, optionalAt, documents.author, documents.description,
    documents.date, dated_ofText?, optionalText_ofText?, ofReferences, references, ofPositives,
    positives]
  rfl

end

namespace Rule

/-- The document that is kept for a rule. -/
def kept (rule : Rule) : Value :=
  .map [(.text "title", .text rule.title), (.text "id", .text rule.id),
    (.text "logsource", rule.logsource.toValue),
    (.text "detection", .map (Value.named rule.detection.parts)), (.text "level", rule.level),
    (.text "status", rule.status), (.text "tags", Value.texts rule.tags),
    (.text "references", Value.texts rule.references),
    (.text "falsepositives", Value.texts rule.falsepositives),
    (.text "author", .ofText? rule.author), (.text "description", .ofText? rule.description),
    (.text "date", .ofText? rule.date)]

theorem Settled.documents_kept {rule : Rule} (settled : rule.Settled) :
    Documents rule.kept rule where
  title := rfl
  id := rfl
  logsource := rfl
  detection := rfl
  level := rfl
  status := rfl
  tags := ⟨_, rfl, textList_texts settled.tags⟩
  references := ⟨_, rfl, textList_texts settled.references⟩
  falsepositives := ⟨_, rfl, textList_texts settled.falsepositives⟩
  author := rfl
  description := rfl
  date := rfl

end Rule

end LogAlert.Sigma
