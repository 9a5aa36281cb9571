/-
# LogAlert.Proofs.Sigma.Readable -- which documents are read without a fault

Reading a document needs the texts of some of its values, and an integer with too many digits has
none.  `problemTexts` are the values that are shown when the problems of a document are listed, and
`ruleTexts` those whose texts a valid document needs to become a rule; nothing else can go wrong with
either (`problems_isOk_iff`, `ofValue_isOk_iff`).  Each step of reading has its own statement of this
kind, in the order of the steps.

Main statement: a valid document without such integers becomes a rule in its final form
(`valid_normalized`).
-/
import LogAlert.Proofs.Sigma.Settled

set_option autoImplicit false

namespace LogAlert

/-! ## Values that can be shown -/

namespace Value

variable {v : Value} {entries : List Entry}

theorem coerce_isOk_iff : (∃ s, v.coerce = .ok s) ↔ v.overlong = false := by
  unfold coerce
  split
  · exact ⟨fun _ => rfl, fun _ => ⟨_, rfl⟩⟩
  · cases v.overlong <;> simp

theorem display_isOk_iff : (∃ s, v.display = .ok s) ↔ v.overlong = false := by
  unfold display
  cases v.overlong <;> simp

theorem overlong_dated (v : Value) : v.dated.overlong = v.overlong := by cases v <;> rfl

theorem overlong_entry (short : (Value.map entries).overlong = false) :
    ∀ entry ∈ entries, entry.1.overlong = false ∧ entry.2.overlong = false :=
  Json.overlongEntries_eq_false.1 short

theorem overlong_get (short : (Value.map entries).overlong = false) (key : String) :
    (get entries key).overlong = false := by
  rcases get_eq_null_or_mem entries key with null | ⟨k, member⟩
  · rw [null]
    rfl
  · exact (overlong_entry short _ member).2

theorem overlong_orElse {w : Value} (short : v.overlong = false) (default : w.overlong = false) :
    (v.orElse w).overlong = false := by
  unfold orElse
  split
  · exact short
  · exact default

/-- Null has a text, so a list can be shown if its other items can. -/
theorem overlong_nonNull {items : List Value} :
    (∀ w ∈ items.filter (!·.isNull), w.overlong = false) ↔ (Value.list items).overlong = false := by
  have null (w : Value) : (w.isNull = false → w.overlong = false) ↔ w.overlong = false := by
    cases w <;> simp [isNull, overlong]
  simp only [List.mem_filter, and_imp, Bool.not_eq_true', null]
  exact Json.overlongList_eq_false.symm

/-- A value that is too long to be shown is no text, and it counts as true. -/
theorem truthy_of_overlong (long : v.overlong = true) : v.truthy = true ∧ ∀ s, v ≠ .text s := by
  cases v with
  | int n =>
      refine ⟨bne_iff_ne.2 ?_, nofun⟩
      rintro rfl
      exact absurd long (by decide)
  | list items => cases items <;> first | cases long | exact ⟨rfl, nofun⟩
  | set items => cases items <;> first | cases long | exact ⟨rfl, nofun⟩
  | map entries => cases entries <;> first | cases long | exact ⟨rfl, nofun⟩
  | pair a b => exact ⟨rfl, nofun⟩
  | _ => cases long

end Value

namespace Sigma

variable {entries inner : List Value.Entry} {v : Value}

/-! ## Listing the problems of a document -/

/-- A scalar, or a list of scalars. -/
def isPlain : Value → Bool
  | .list items => items.all isScalar
  | v => isScalar v

/-- The keys of the fields that are neither scalars nor lists of scalars. -/
def faultyKeys : Value → List Value
  | .map fields => (fields.filter fun field => !isPlain field.2).map (·.1)
  | _ => []

/-- The values of a detection that are shown when its problems are listed. -/
def detectionProblemTexts (inner : List Value.Entry) : List Value :=
  (selectionEntries inner).flatMap fun entry => entry.1 :: faultyKeys entry.2

/-- The values that are shown when the problems of a document are listed. -/
def problemTexts (entries : List Value.Entry) : List Value :=
  (Value.get entries "detection").entries?.elim [] detectionProblemTexts ++
    [Value.get entries "level", Value.get entries "status"]

theorem fieldProblems_isOk_iff {name : String} {key : Value} :
    (∃ ps, fieldProblems name key v = .ok ps) ↔ (isPlain v = false → key.overlong = false) := by
  have named (shape : String) : (∃ ps, (do
      return [(← (do return "Unsupported value for \"" ++ name ++ "." ++ (← key.display) ++ "\": " :
        Except Fault String)) ++ shape] : Except Fault (List String)) = .ok ps) ↔
      key.overlong = false := by
    rw [bind_pure_isOk_iff, bind_pure_isOk_iff, Value.display_isOk_iff]
  have either (shape : String) : (∃ ps, (if isPlain v then .ok [] else do
      return [(← (do return "Unsupported value for \"" ++ name ++ "." ++ (← key.display) ++ "\": " :
        Except Fault String)) ++ shape] : Except Fault (List String)) = .ok ps) ↔
      (isPlain v = false → key.overlong = false) := by
    cases isPlain v
    · exact (named shape).trans ⟨fun short _ => short, fun short => short rfl⟩
    · exact iff_of_true ⟨_, rfl⟩ nofun
  cases v with
  | list items => exact either "lists may only contain scalars"
  | bytes | pair | set | map => exact either "expected a scalar or a list of scalars"
  | _ => exact iff_of_true ⟨_, rfl⟩ nofun

theorem selectionProblems_isOk_iff {name : String} {body : Value} :
    (∃ ps, selectionProblems name body = .ok ps) ↔
      ∀ key ∈ faultyKeys body, key.overlong = false := by
  cases body with
  | map fields =>
      refine bind_pure_isOk_iff.trans (mapM_isOk_iff.trans ?_)
      simp only [fieldProblems_isOk_iff, faultyKeys, List.forall_mem_map, List.mem_filter,
        Bool.not_eq_true', and_imp]
  | _ => exact iff_of_true ⟨_, rfl⟩ nofun

theorem detectionProblems_isOk_iff :
    (∃ ps, detectionProblems inner = .ok ps) ↔
      ∀ v ∈ detectionProblemTexts inner, v.overlong = false := by
  have one (entry : Value.Entry) :
      (∃ ps, (do selectionProblems (← entry.1.display) entry.2) = .ok ps) ↔
        ∀ v ∈ entry.1 :: faultyKeys entry.2, v.overlong = false := by
    rw [bind_isOk_iff fun _ _ => selectionProblems_isOk_iff, Value.display_isOk_iff,
      List.forall_mem_cons]
  rw [detectionProblemTexts, List.forall_mem_flatMap]
  exact bind_pure_isOk_iff.trans (mapM_isOk_iff.trans (forall₂_congr fun entry _ => one entry))

theorem choiceProblems_isOk_iff {field : String} {choices : List String} :
    (∃ ps, choiceProblems field choices v = .ok ps) ↔ v.overlong = false := by
  unfold choiceProblems
  split
  · exact bind_pure_isOk_iff.trans Value.display_isOk_iff
  · rename_i fine
    refine iff_of_true ⟨_, rfl⟩ (eq_false_of_ne_true fun long => fine ?_)
    obtain ⟨truthy, noText⟩ := Value.truthy_of_overlong long
    simp only [truthy, Value.same_text_iff, noText, Bool.true_and, Bool.not_eq_true',
      List.any_eq_false, not_false_eq_true, implies_true]

/-- **The problems of a document can be listed** if no integer that is shown has too many digits. -/
theorem problems_isOk_iff :
    (∃ ps, problems (.map entries) = .ok ps) ↔
      ∀ v ∈ problemTexts entries, v.overlong = false := by
  have ends (level status : Value) (ofTitle ofSource ofDetection : List String) :
      (∃ ps, (do
        let ofLevel ← choiceProblems "level" levels level
        let ofStatus ← choiceProblems "status" statuses status
        return ofTitle ++ ofSource ++ ofDetection ++ ofLevel ++ ofStatus :
          Except Fault (List String)) = .ok ps) ↔
        ∀ v ∈ [level, status], v.overlong = false := by
    rw [bind_isOk_iff fun _ _ => bind_pure_isOk_iff, choiceProblems_isOk_iff,
      choiceProblems_isOk_iff, List.forall_mem_cons, List.forall_mem_singleton]
  rw [problemTexts, List.forall_mem_append]
  simp only [problems, Value.getOf, ok_bind]
  cases Value.get entries "detection" with
  | map inner =>
      exact (bind_isOk_iff fun _ _ => ends _ _ _ _ _).trans
        (and_congr_left' detectionProblems_isOk_iff)
  | _ => exact (ends _ _ _ _ _).trans (and_iff_right (List.forall_mem_nil _)).symm

/-! ## Reading a rule -/

theorem optionalText_isOk_iff : (∃ s, optionalText v = .ok s) ↔ v.overlong = false := by
  cases v with
  | null => exact iff_of_true ⟨_, rfl⟩ rfl
  | _ => exact bind_pure_isOk_iff.trans Value.coerce_isOk_iff

theorem textList_isOk_iff : (∃ texts, textList v = .ok texts) ↔ v.overlong = false := by
  have items (each : List Value) :
      (∃ texts, (do
        let texts ← (each.filter (!·.isNull)).mapM Value.coerce
        return texts.filter (· ≠ "") : Except Fault (List String)) = .ok texts) ↔
        (Value.list each).overlong = false := by
    rw [bind_pure_isOk_iff, mapM_isOk_iff, ← Value.overlong_nonNull]
    simp only [Value.coerce_isOk_iff]
  have alone (w : Value) : (Value.list [w]).overlong = w.overlong := Bool.or_false _
  cases v with
  | null => exact iff_of_true ⟨_, rfl⟩ rfl
  | list each => exact items each
  | _ => exact (items [_]).trans (by rw [alone])

/-- The values of a selection whose texts are needed. -/
def selectionTexts : Value → List Value
  | .map fields => fields.map (·.1)
  | v => [v]

/-- The values of a condition whose texts are needed: only texts are taken from a list. -/
def conditionTexts : Value → List Value
  | .list _ => []
  | v => [v]

/-- The values of a detection whose texts are needed. -/
def detectionTexts (inner : List Value.Entry) : List Value :=
  (selectionEntries inner).flatMap (fun entry => entry.1 :: selectionTexts entry.2) ++
    conditionTexts (Value.get inner "condition") ++ [Value.get inner "timeframe"]

/-- The values of a log source whose texts are needed. -/
def sourceTexts (source : List Value.Entry) : List Value :=
  ["product", "service", "category", "definition"].map (Value.get source)

/-- The values of a document whose texts are needed to make a rule of it. -/
def ruleTexts (entries : List Value.Entry) : List Value :=
  (Value.get entries "detection").entries?.elim [] detectionTexts ++
    (Value.get entries "logsource").entries?.elim [] sourceTexts ++
    ["id", "tags", "author", "description", "date", "references", "falsepositives"].map
      (Value.get entries)

theorem constraint_ofEntry_isOk_iff {key : Value} :
    (∃ c, Constraint.ofEntry key v = .ok c) ↔ key.overlong = false := by
  cases v <;> exact bind_pure_isOk_iff.trans Value.display_isOk_iff

theorem selection_ofValue_isOk_iff :
    (∃ s, Selection.ofValue v = .ok s) ↔ ∀ w ∈ selectionTexts v, w.overlong = false := by
  cases v with
  | null => exact iff_of_true ⟨_, rfl⟩ (List.forall_mem_singleton.2 rfl)
  | list items =>
      refine bind_pure_isOk_iff.trans (mapM_isOk_iff.trans ?_)
      simp only [selectionTexts, List.forall_mem_singleton, ← Value.overlong_nonNull,
        Value.coerce_isOk_iff, Value.overlong_dated]
  | map fields =>
      refine bind_pure_isOk_iff.trans (mapM_isOk_iff.trans ?_)
      simp only [constraint_ofEntry_isOk_iff, selectionTexts, List.forall_mem_map]
  | _ =>
      refine bind_pure_isOk_iff.trans (Value.coerce_isOk_iff.trans ?_)
      simp only [selectionTexts, List.forall_mem_singleton, Value.overlong_dated]

theorem selectionsOf_isOk_iff : (∃ selections, selectionsOf inner = .ok selections) ↔
    ∀ v ∈ (selectionEntries inner).flatMap (fun entry => entry.1 :: selectionTexts entry.2),
      v.overlong = false := by
  have one (entry : Value.Entry) :
      (∃ part, (do return (← entry.1.display, ← Selection.ofValue entry.2) :
        Except Fault (String × Selection)) = .ok part) ↔
        ∀ v ∈ entry.1 :: selectionTexts entry.2, v.overlong = false := by
    rw [bind_isOk_iff fun _ _ => bind_pure_isOk_iff, Value.display_isOk_iff,
      selection_ofValue_isOk_iff, List.forall_mem_cons]
  rw [List.forall_mem_flatMap]
  exact bind_pure_isOk_iff.trans (mapM_isOk_iff.trans (forall₂_congr fun entry _ => one entry))

theorem conditionOf_isOk_iff :
    (∃ s, conditionOf v = .ok s) ↔ ∀ w ∈ conditionTexts v, w.overlong = false := by
  cases v with
  | list items =>
      refine iff_of_true ?_ nofun
      unfold conditionOf
      dsimp only
      split <;> exact ⟨_, rfl⟩
  | _ =>
      refine bind_pure_isOk_iff.trans (Value.coerce_isOk_iff.trans ?_)
      simp only [conditionTexts, List.forall_mem_singleton]

theorem logSource_ofValue_isOk_iff {source : List Value.Entry} :
    (∃ s, LogSource.ofValue (.map source) = .ok s) ↔
      ∀ v ∈ sourceTexts source, v.overlong = false := by
  have entry (key : String) : (∃ s, optionalAt (.map source) key = .ok s) ↔
      (Value.get source key).overlong = false := optionalText_isOk_iff
  rw [LogSource.ofValue, bind_isOk_iff fun _ _ => bind_isOk_iff fun _ _ => bind_isOk_iff
    fun _ _ => bind_pure_isOk_iff]
  simp only [entry, sourceTexts, List.forall_mem_map, List.forall_mem_cons]
  tauto

/-- The detection and the identifier of a document are read if their values can be shown. -/
theorem draft_isOk_iff (detected : Value.get entries "detection" = .map inner) :
    (∃ draft, Draft.ofValue (.map entries) = .ok draft) ↔
      (∀ v ∈ detectionTexts inner, v.overlong = false) ∧
        (Value.get entries "id").overlong = false := by
  have demanded : (Value.map entries).demand "detection" = .ok (.map inner) :=
    Value.demand_eq_ok (congrArg Except.ok detected) nofun
  simp only [Draft.ofValue, demanded, Value.itemsOf, Value.getOf, ok_bind]
  rw [bind_isOk_iff fun _ _ => bind_isOk_iff fun _ _ => bind_isOk_iff fun _ _ => bind_pure_isOk_iff,
    selectionsOf_isOk_iff, conditionOf_isOk_iff, optionalText_isOk_iff, Value.coerce_isOk_iff,
    detectionTexts, List.forall_mem_append, List.forall_mem_append, List.forall_mem_singleton]
  tauto

/-- The values whose texts are needed after detection and identifier have been read. -/
theorem complete_isOk_iff {title : String} {source : List Value.Entry}
    (titled : Value.get entries "title" = .text title)
    (sourced : Value.get entries "logsource" = .map source) {draft : Draft}
    (ofRaw : draft.raw = .map entries) (id : String) :
    (∃ rule, draft.complete id = .ok rule) ↔
      (∀ v ∈ sourceTexts source, v.overlong = false) ∧
        ∀ v ∈ ["tags", "author", "description", "date", "references", "falsepositives"].map
          (Value.get entries), v.overlong = false := by
  have demanded : (Value.map entries).demand "title" = .ok (.text title) :=
    Value.demand_eq_ok (congrArg Except.ok titled) nofun
  have same : (Value.map source).orElse (.map []) = .map source := by
    cases source <;> rfl
  have entry (key : String) : (∃ s, optionalAt (.map entries) key = .ok s) ↔
      (Value.get entries key).overlong = false := optionalText_isOk_iff
  simp only [Draft.complete, ofRaw, demanded, Value.trimmed, Value.getOf, ok_bind, sourced, same]
  rw [bind_isOk_iff fun _ _ => bind_isOk_iff fun _ _ => bind_isOk_iff fun _ _ => bind_isOk_iff
    fun _ _ => bind_isOk_iff fun _ _ => bind_isOk_iff fun _ _ => bind_pure_isOk_iff,
    logSource_ofValue_isOk_iff, optionalText_isOk_iff, Value.overlong_dated]
  simp only [entry, textList_isOk_iff, List.map_cons, List.map_nil, List.forall_mem_cons,
    List.not_mem_nil, IsEmpty.forall_iff, implies_true, and_true]

/-- A valid document is read, whatever the rule is named, if no integer whose text is needed has too
many digits. -/
theorem read_isOk_iff (valid : Valid (.map entries)) (name : Draft → String) :
    (∃ draft rule, Draft.ofValue (.map entries) = .ok draft ∧
        draft.complete (name draft) = .ok rule) ↔
      ∀ v ∈ ruleTexts entries, v.overlong = false := by
  obtain ⟨title, titled, -⟩ := valid.title
  obtain ⟨source, sourced⟩ := valid.logsource
  obtain ⟨inner, detected, -⟩ := valid.detection
  have ofDetection := Except.ok.inj detected
  have ofSource := Except.ok.inj sourced
  have completes {draft : Draft} (drafted : Draft.ofValue (.map entries) = .ok draft) :=
    complete_isOk_iff (Except.ok.inj titled) ofSource (draft_ok drafted).1 (name draft)
  have whole : (∀ v ∈ ruleTexts entries, v.overlong = false) ↔
      ((∀ v ∈ detectionTexts inner, v.overlong = false) ∧
        (Value.get entries "id").overlong = false) ∧
      (∀ v ∈ sourceTexts source, v.overlong = false) ∧
        ∀ v ∈ ["tags", "author", "description", "date", "references", "falsepositives"].map
          (Value.get entries), v.overlong = false := by
    simp only [ruleTexts, ofDetection, ofSource, Value.entries?, Option.elim, List.forall_mem_append,
      List.map_cons, List.forall_mem_cons]
    tauto
  rw [whole, ← draft_isOk_iff ofDetection]
  constructor
  · rintro ⟨draft, rule, drafted, completed⟩
    exact ⟨⟨draft, drafted⟩, (completes drafted).1 ⟨rule, completed⟩⟩
  · rintro ⟨⟨draft, drafted⟩, short⟩
    obtain ⟨rule, completed⟩ := (completes drafted).2 short
    exact ⟨draft, rule, drafted, completed⟩

/-- **A valid document becomes a rule** if no integer whose text is needed has too many digits. -/
theorem ofValue_isOk_iff (valid : Valid (.map entries)) (ids : Ids) :
    (∃ rule ids', Rule.ofValue ids (.map entries) = (.ok rule, ids')) ↔
      ∀ v ∈ ruleTexts entries, v.overlong = false := by
  rw [← read_isOk_iff valid fun draft => (ids.orFresh draft.id).1]
  constructor
  · rintro ⟨rule, ids', read⟩
    obtain ⟨draft, drafted, completed⟩ := ofValue_ok read
    exact ⟨draft, rule, drafted, completed⟩
  · rintro ⟨draft, rule, drafted, completed⟩
    refine ⟨rule, (ids.orFresh draft.id).2, ?_⟩
    rw [Rule.ofValue, drafted]
    exact congrArg (·, _) completed

/-! ## Documents without long integers -/

theorem problemTexts_short (short : (Value.map entries).overlong = false) :
    ∀ v ∈ problemTexts entries, v.overlong = false := by
  have detection := Value.overlong_get short "detection"
  rw [problemTexts, List.forall_mem_append, List.forall_mem_cons, List.forall_mem_singleton]
  refine ⟨?_, Value.overlong_get short "level", Value.overlong_get short "status"⟩
  cases detected : Value.get entries "detection" with
  | map inner =>
      rw [detected] at detection
      refine List.forall_mem_flatMap.2 fun entry member => List.forall_mem_cons.2 ?_
      have parts := Value.overlong_entry detection entry (List.mem_filter.1 member).1
      refine ⟨parts.1, fun key faulty => ?_⟩
      cases body : entry.2 with
      | map fields =>
          rw [body] at faulty parts
          obtain ⟨field, inFields, rfl⟩ := List.mem_map.1 faulty
          exact (Value.overlong_entry parts.2 field (List.mem_filter.1 inFields).1).1
      | _ => rw [body] at faulty; cases faulty
  | _ => exact nofun

theorem selectionTexts_short (short : v.overlong = false) :
    ∀ w ∈ selectionTexts v, w.overlong = false := by
  cases v with
  | map fields => exact List.forall_mem_map.2 fun field member =>
      (Value.overlong_entry short field member).1
  | _ => exact List.forall_mem_singleton.2 short

theorem detectionTexts_short (short : (Value.map inner).overlong = false) :
    ∀ v ∈ detectionTexts inner, v.overlong = false := by
  have condition := Value.overlong_get short "condition"
  rw [detectionTexts, List.forall_mem_append, List.forall_mem_append, List.forall_mem_singleton]
  refine ⟨⟨List.forall_mem_flatMap.2 fun entry member => ?_, ?_⟩,
    Value.overlong_get short "timeframe"⟩
  · have parts := Value.overlong_entry short entry (List.mem_filter.1 member).1
    exact List.forall_mem_cons.2 ⟨parts.1, selectionTexts_short parts.2⟩
  · cases given : Value.get inner "condition" with
    | list items => exact nofun
    | _ => exact List.forall_mem_singleton.2 (given ▸ condition)

theorem ruleTexts_short (short : (Value.map entries).overlong = false) :
    ∀ v ∈ ruleTexts entries, v.overlong = false := by
  have detection := Value.overlong_get short "detection"
  have source := Value.overlong_get short "logsource"
  rw [ruleTexts, List.forall_mem_append, List.forall_mem_append]
  refine ⟨⟨?_, ?_⟩, List.forall_mem_map.2 fun key _ => Value.overlong_get short key⟩
  · cases detected : Value.get entries "detection" with
    | map inner => exact detectionTexts_short (detected ▸ detection)
    | _ => exact nofun
  · cases sourced : Value.get entries "logsource" with
    | map inner =>
        exact List.forall_mem_map.2 fun key _ => Value.overlong_get (sourced ▸ source) key
    | _ => exact nofun

/-- **Validated documents normalize.**  A mapping of any shape without integers that are too long to
be shown, in which no problem is found, becomes a rule, and the rule is settled. -/
theorem valid_normalized (ids : Ids) (entries : List Value.Entry)
    (plain : Text.trim ids.stem = ids.stem) (short : (Value.map entries).overlong = false)
    (fine : problems (.map entries) = .ok []) :
    ∃ rule ids', Rule.ofValue ids (.map entries) = (.ok rule, ids') ∧ rule.Settled := by
  have valid := problems_eq_nil.1 fine
  obtain ⟨rule, ids', read⟩ := (ofValue_isOk_iff valid ids).2 (ruleTexts_short short)
  exact ⟨rule, ids', read, settled_of_ofValue (plain ▸ Text.trimmed_trim _) valid read⟩

/-- A document without an identifier, with a name and a key that are no texts, values of several
kinds in one field, a tag and a condition that are numbers, and a level that counts as false. -/
def mixedDocument : List Value.Entry :=
  [(.text "title", .text " T "), (.text "logsource", .map [(.text "product", .bool true)]),
    (.text "level", .bool false), (.text "tags", .int 5),
    (.text "detection", .map [
      (.int 1, .map [(.bool true, .list [.null, .date ⟨2026, 1, 2⟩, .int 10, .text "x"])]),
      (.text "condition", .int 1), (.null, .date ⟨2026, 1, 3⟩)])]

theorem valid_normalized_mixed : problems (.map mixedDocument) = .ok [] ∧
    ∃ rule ids', Rule.ofValue ⟨"gen", 0⟩ (.map mixedDocument) = (.ok rule, ids') ∧ rule.Settled := by
  have fine : problems (.map mixedDocument) = .ok [] := by rfl
  exact ⟨fine, valid_normalized ⟨"gen", 0⟩ mixedDocument (by decide +kernel) (by decide +kernel) fine⟩

end Sigma

end LogAlert
