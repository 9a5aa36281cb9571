/-
# LogAlert.Proofs.Sigma.Settled -- rules that have their final form

The rule that is read from a document has a form in which it stays: titles and conditions have no
blanks at their ends, selections have distinct names that are not reserved, a constraint has the
field and the modifier that its key is read as (`Constraint.Keyed`).  If the document was valid, then
level and status are texts of their lists and all values of constraints are scalars without dates
(`Constraint.Settled`).  `settled_of_ofValue` puts this together; what a settled rule is good for is
said in `LogAlert.Proofs.Sigma.Rebuilt`.
-/
import LogAlert.Proofs.Ids
import LogAlert.Proofs.Sigma.Valid
import LogAlert.Proofs.Text.Normal
import LogAlert.Proofs.Value.Shown
import LogAlert.Proofs.Yaml.Floats

set_option autoImplicit false

namespace LogAlert

/-! ## Values -/

namespace Value

theorem eq_of_coerce {v : Value} {s : String} (coerced : v.coerce = .ok s) : s = v.coerced := by
  unfold coerce at coerced
  split at coerced
  · exact (Except.ok.inj coerced).symm
  · split at coerced
    · cases coerced
    · exact (Except.ok.inj coerced).symm

theorem eq_of_display {v : Value} {s : String} (displayed : v.display = .ok s) : s = v.shown := by
  unfold display at displayed
  split at displayed
  · cases displayed
  · exact (Except.ok.inj displayed).symm

theorem Exact.get {entries : List Entry} (exact : (Value.map entries).Exact) (key : String) :
    (Value.get entries key).Exact := by
  rcases get_eq_null_or_mem entries key with null | ⟨k, member⟩
  · rw [null]
    exact nofun
  · exact exact.entry member

theorem Exact.dated {v : Value} (exact : v.Exact) : v.dated.Exact := by
  cases v with
  | date d => exact nofun
  | time t => exact nofun
  | _ => exact exact

theorem dated_dated (v : Value) : v.dated.dated = v.dated := by cases v <;> rfl

end Value

namespace Sigma

theorem isScalar_dated {v : Value} (scalar : isScalar v = true) : isScalar v.dated = true := by
  cases v <;> first | rfl | exact scalar

/-! ## Keys of constraints -/

/-- The key of the constraint is read as its field and its modifier. -/
def Constraint.Keyed (c : Constraint) : Prop := splitKey c.key = (c.field, c.modifier)

/-- The modifiers of a key. -/
def modifiersOf (parts : List String) : List String :=
  (parts.map fun m => Text.lower (Text.trim m)).filter (· ≠ "")

/-- What is read behind a field. -/
def modifierOf (named : List String) : Option String :=
  if named.isEmpty then none else some (Value.joined "|" named)

theorem splitKey_of_split {key field : String} {parts : List String}
    (split : Text.split '|' key = field :: parts) :
    splitKey key = (Text.trim field, modifierOf (modifiersOf parts)) := by
  rw [splitKey, split]
  rfl

/-- A modifier that was read is read as itself. -/
structure SettledModifier (m : String) : Prop where
  same : Text.lower (Text.trim m) = m
  filled : m ≠ ""
  bare : '|' ∉ m.toList

theorem settledModifier_of_mem {parts : List String} (bare : ∀ p ∈ parts, '|' ∉ p.toList)
    {m : String} (member : m ∈ modifiersOf parts) : SettledModifier m := by
  obtain ⟨made, filled⟩ := List.mem_filter.1 member
  obtain ⟨part, inParts, rfl⟩ := List.mem_map.1 made
  refine ⟨?_, of_decide_eq_true filled,
    Text.bar_not_mem_lower (Text.bar_not_mem_trim (bare part inParts))⟩
  rw [Text.trim_of_trimmed (Text.trimmed_lower (Text.trimmed_trim part)), Text.lower_lower]

theorem modifiersOf_settled {named : List String} (settled : ∀ m ∈ named, SettledModifier m) :
    modifiersOf named = named := by
  have same : (named.map fun m => Text.lower (Text.trim m)) = named :=
    (List.map_congr_left fun m member => (settled m member).same).trans (List.map_id named)
  rw [modifiersOf, same]
  exact List.filter_eq_self.2 fun m member => decide_eq_true (settled m member).filled

theorem joined_ne_empty {named : List String} (nonempty : named ≠ [])
    (settled : ∀ m ∈ named, SettledModifier m) : Value.joined "|" named ≠ "" := by
  obtain ⟨m, rest, rfl⟩ := List.exists_cons_of_ne_nil nonempty
  have filled := (settled m List.mem_cons_self).filled
  cases rest with
  | nil => rwa [Value.joined, String.intercalate_singleton]
  | cons next rest =>
      rw [Value.joined, String.intercalate_cons_of_ne_nil (List.cons_ne_nil _ _)]
      intro empty
      have chars := congrArg String.toList empty
      simp [String.toList_append] at chars

/-- A key that is written from what was read is read as the same. -/
theorem keyed_of_splitKey {key field : String} {modifier : Option String}
    (read : splitKey key = (field, modifier)) (values : List Value) (isList : Bool) :
    Constraint.Keyed ⟨field, values, modifier, isList⟩ := by
  have bare : ∀ p ∈ Text.split '|' key, '|' ∉ p.toList := fun p => Text.bar_not_mem_of_mem_split
  cases split : Text.split '|' key with
  | nil =>
      exact absurd (List.map_eq_nil_iff.1 split) (Text.splitChars_ne_nil _ _)
  | cons first parts =>
      rw [split] at bare
      rw [splitKey_of_split split] at read
      cases read
      have trimmed : Text.trim (Text.trim first) = Text.trim first := Text.trim_trim first
      have bareField := Text.bar_not_mem_trim (bare first List.mem_cons_self)
      have settled : ∀ m ∈ modifiersOf parts, SettledModifier m := fun m =>
        settledModifier_of_mem fun p member => bare p (List.mem_cons_of_mem _ member)
      generalize modifiersOf parts = named at settled
      by_cases none : named = []
      · have alone : Text.split '|' (Text.trim first) = [Text.trim first] := by
          have pieces : Text.split '|' (Value.joined "|" [Text.trim first]) = [Text.trim first] :=
            Text.split_joined (by simpa using bareField) (List.cons_ne_nil _ _)
          rwa [Value.joined, String.intercalate_singleton] at pieces
        subst none
        rw [Constraint.Keyed]
        change splitKey (Text.trim first) = _
        rw [splitKey_of_split alone, trimmed]
        rfl
      · have some : modifierOf named = .some (Value.joined "|" named) :=
          if_neg (by simpa using none)
        have key : (⟨Text.trim first, values, modifierOf named, isList⟩ : Constraint).key =
            Value.joined "|" (Text.trim first :: named) := by
          simp only [Constraint.key, given, some, Option.filter_some,
            joined_ne_empty none settled, ne_eq, not_false_eq_true, decide_true, if_true]
          rw [Value.joined, Value.joined, String.intercalate_cons_of_ne_nil none]
        have pieces : Text.split '|' (Value.joined "|" (Text.trim first :: named)) =
            Text.trim first :: named :=
          Text.split_joined (by simpa using ⟨bareField, fun m member => (settled m member).bare⟩)
            (List.cons_ne_nil _ _)
        rw [Constraint.Keyed, key, splitKey_of_split pieces, trimmed, modifiersOf_settled settled]

/-! ## Constraints and selections -/

/-- The values of the constraint are scalars without dates, and a single one if it is no list. -/
structure Constraint.Settled (c : Constraint) : Prop where
  single : c.isList = false → ∃ v, c.values = [v]
  scalars : ∀ v ∈ c.values, isScalar v = true
  dated : ∀ v ∈ c.values, v.dated = v

/-- All values of floating point in the constraint have the form in which they are made. -/
def Constraint.Exact (c : Constraint) : Prop := ∀ v ∈ c.values, v.Exact

/-- All constraints of the selection have the property. -/
def Selection.All (p : Constraint → Prop) : Selection → Prop
  | .keywords _ => True
  | .fields constraints => ∀ c ∈ constraints, p c
  | .other _ => False

theorem keyed_of_ofEntry {key v : Value} {c : Constraint} (read : Constraint.ofEntry key v = .ok c) :
    c.Keyed := by
  obtain ⟨shown, -, read⟩ := bind_eq_ok.1 read
  cases split : splitKey shown with
  | mk field modifier =>
      rw [split] at read
      dsimp only at read
      split at read <;> cases read <;> exact keyed_of_splitKey split _ _

theorem settled_of_ofEntry {key v : Value} {c : Constraint} (plain : Plain v)
    (read : Constraint.ofEntry key v = .ok c) : c.Settled := by
  obtain ⟨shown, -, read⟩ := bind_eq_ok.1 read
  dsimp only at read
  split at read
  · rename_i items
    cases read
    have scalars := List.all_eq_true.1 (plain_list.1 plain)
    refine ⟨nofun, fun w member => ?_, fun w member => ?_⟩
    all_goals
      obtain ⟨u, inItems, rfl⟩ := List.mem_map.1 member
    · exact isScalar_dated (scalars u inItems)
    · exact Value.dated_dated u
  · rename_i noList
    cases read
    have scalar := plain.resolve_right fun ⟨items, same, _⟩ => noList items same
    refine ⟨fun _ => ⟨_, rfl⟩, fun w member => ?_, fun w member => ?_⟩
    all_goals
      cases List.mem_singleton.1 member
    · exact isScalar_dated scalar
    · exact Value.dated_dated v

theorem exact_of_ofEntry {key v : Value} {c : Constraint} (exact : v.Exact)
    (read : Constraint.ofEntry key v = .ok c) : c.Exact := by
  obtain ⟨shown, -, read⟩ := bind_eq_ok.1 read
  dsimp only at read
  split at read
  · cases read
    intro w member
    obtain ⟨u, inItems, rfl⟩ := List.mem_map.1 member
    exact (exact.item inItems).dated
  · cases read
    intro w member
    cases List.mem_singleton.1 member
    exact exact.dated

theorem Selection.all_of_ofValue {p : Constraint → Prop} {body : Value} {s : Selection}
    (read : Selection.ofValue body = .ok s)
    (each : ∀ entries, body = .map entries → ∀ entry ∈ entries, ∀ c,
      Constraint.ofEntry entry.1 entry.2 = .ok c → p c) : s.All p := by
  unfold Selection.ofValue at read
  split at read
  · cases read
    exact nofun
  · obtain ⟨words, -, read⟩ := bind_eq_ok.1 read
    cases read
    exact trivial
  · rename_i entries
    obtain ⟨constraints, mapped, read⟩ := bind_eq_ok.1 read
    cases read
    intro c member
    obtain ⟨entry, inEntries, one⟩ := mem_of_mapM_eq_ok mapped member
    exact each entries rfl entry inEntries c one
  · obtain ⟨word, -, read⟩ := bind_eq_ok.1 read
    cases read
    exact trivial

theorem Selection.keyed_of_ofValue {body : Value} {s : Selection}
    (read : Selection.ofValue body = .ok s) : s.All Constraint.Keyed :=
  all_of_ofValue read fun _ _ _ _ _ => keyed_of_ofEntry

theorem Selection.settled_of_ofValue {body : Value} {s : Selection} (matchable : Matchable body)
    (read : Selection.ofValue body = .ok s) : s.All Constraint.Settled := by
  refine all_of_ofValue read fun entries same entry member c made => ?_
  subst same
  have plain : Plain entry.2 := by
    rcases matchable with (scalar | ⟨_, list, _⟩) | ⟨_, same, each⟩
    · cases scalar
    · cases list
    · cases same
      exact each entry member
  exact settled_of_ofEntry plain made

theorem Selection.exact_of_ofValue {body : Value} {s : Selection} (exact : body.Exact)
    (read : Selection.ofValue body = .ok s) : s.All Constraint.Exact := by
  refine all_of_ofValue read fun entries same entry member c made => ?_
  subst same
  exact exact_of_ofEntry (exact.entry member) made

/-! ## Detections -/

theorem putSelection_eq (selections : List (String × Selection)) (name : String) (s : Selection) :
    putSelection selections name s = overwrite Prod.fst (name, s) selections := by
  induction selections with
  | nil => rfl
  | cons first rest ih =>
      obtain ⟨n, t⟩ := first
      rw [putSelection, overwrite, ih]
      by_cases same : n = name
      · rw [if_pos same, if_pos same, same]
      · rw [if_neg same, if_neg same]

/-- An entry of a detection, with the selection that is read from it. -/
structure ReadsAs (entry : Value.Entry) (part : String × Selection) : Prop where
  name : entry.1.display = .ok part.1
  body : Selection.ofValue entry.2 = .ok part.2

theorem selectionsOf_eq_ok {entries : List Value.Entry} {selections : List (String × Selection)} :
    selectionsOf entries = .ok selections ↔ ∃ parts,
      List.Forall₂ ReadsAs (selectionEntries entries) parts ∧
        collapse Prod.fst parts = selections := by
  have one (entry : Value.Entry) (part : String × Selection) :
      (do return (← entry.1.display, ← Selection.ofValue entry.2)) = .ok part ↔
        ReadsAs entry part := by
    constructor
    · intro read
      obtain ⟨name, displayed, read⟩ := bind_eq_ok.1 read
      obtain ⟨s, body, read⟩ := bind_eq_ok.1 read
      cases read
      exact ⟨displayed, body⟩
    · rintro ⟨displayed, body⟩
      exact bind_eq_ok.2 ⟨_, displayed, bind_eq_ok.2 ⟨_, body, rfl⟩⟩
  have puts (parts : List (String × Selection)) :
      parts.foldl (fun done part => putSelection done part.1 part.2) [] =
        collapse Prod.fst parts := by
    simp only [putSelection_eq]
    rfl
  rw [selectionsOf, bind_eq_ok]
  refine exists_congr fun parts => ?_
  rw [mapM_eq_ok, show (fun entry part => _ = Except.ok part) = ReadsAs from
    funext₂ fun entry part => propext (one entry part)]
  refine and_congr_right fun _ => ?_
  rw [← puts]
  exact ⟨Except.ok.inj, congrArg Except.ok⟩

/-- The selections of the detection have distinct names that are not reserved, and keys that are read
as they were written. -/
structure Detection.Keyed (d : Detection) : Prop where
  distinct : d.names.Nodup
  free : ∀ name ∈ d.names, name ∉ Condition.reservedNames
  keyed : ∀ part ∈ d.selections, part.2.All Constraint.Keyed

/-- The detection of a valid document. -/
structure Detection.Settled (d : Detection) : Prop where
  keyed : d.Keyed
  settled : ∀ part ∈ d.selections, part.2.All Constraint.Settled
  trimmed : Text.trim d.condition = d.condition
  filled : isFilled d.condition = true

/-- No selection has a name that is reserved. -/
theorem name_not_reserved {entry : Value.Entry} {entries : List Value.Entry} {name : String}
    (member : entry ∈ selectionEntries entries) (displayed : entry.1.display = .ok name) :
    name ∉ Condition.reservedNames := by
  have free := (List.mem_filter.1 member).2
  rw [Value.eq_of_display displayed]
  cases key : entry.1 with
  | text s =>
      rw [key] at free
      change s ∉ _
      simpa [isReserved] using free
  | _ => exact Value.shown_ne_reserved nofun

section Selections

variable {entries : List Value.Entry} {selections : List (String × Selection)}

/-- Each selection is read from an entry. -/
theorem mem_selectionsOf (read : selectionsOf entries = .ok selections)
    {part : String × Selection} (member : part ∈ selections) :
    ∃ entry ∈ selectionEntries entries, ReadsAs entry part := by
  obtain ⟨parts, each, rfl⟩ := selectionsOf_eq_ok.1 read
  exact exists_of_forall₂ each (mem_collapse member)

theorem distinct_selectionsOf (read : selectionsOf entries = .ok selections) :
    (selections.map Prod.fst).Nodup := by
  obtain ⟨parts, -, rfl⟩ := selectionsOf_eq_ok.1 read
  exact nodup_collapse parts

theorem keyed_of_selectionsOf (read : selectionsOf entries = .ok selections) (condition : String)
    (timeframe : Option String) : Detection.Keyed ⟨condition, selections, timeframe⟩ := by
  refine ⟨distinct_selectionsOf read, fun name member => ?_, fun part member => ?_⟩
  · obtain ⟨part, inSelections, rfl⟩ := List.mem_map.1 member
    obtain ⟨entry, inEntries, reads⟩ := mem_selectionsOf read inSelections
    exact name_not_reserved inEntries reads.name
  · obtain ⟨entry, -, reads⟩ := mem_selectionsOf read member
    exact Selection.keyed_of_ofValue reads.body

theorem settled_of_selectionsOf (valid : ValidDetection entries)
    (read : selectionsOf entries = .ok selections) :
    ∀ part ∈ selections, part.2.All Constraint.Settled := by
  intro part member
  obtain ⟨entry, inEntries, reads⟩ := mem_selectionsOf read member
  exact Selection.settled_of_ofValue (valid.bodies entry inEntries) reads.body

theorem exact_of_selectionsOf (exact : (Value.map entries).Exact)
    (read : selectionsOf entries = .ok selections) :
    ∀ part ∈ selections, part.2.All Constraint.Exact := by
  intro part member
  obtain ⟨entry, inEntries, reads⟩ := mem_selectionsOf read member
  exact Selection.exact_of_ofValue (exact.entry (List.mem_filter.1 inEntries).1) reads.body

end Selections

theorem isFilled_trim (s : String) : isFilled (Text.trim s) = isFilled s :=
  congrArg not (Text.isBlankText_trim s)

theorem isFilled_of_trimmed {s : String} (nonempty : s.toList ≠ [])
    (trimmed : Text.Trimmed s.toList) : isFilled s = true :=
  congrArg not (trimmed.not_blank nonempty)

/-- A text in brackets begins and ends without a blank. -/
theorem trimmed_bracketed (t : String) :
    ("(" ++ t ++ ")").toList ≠ [] ∧ Text.Trimmed ("(" ++ t ++ ")").toList := by
  have chars : ("(" ++ t ++ ")").toList = ['('] ++ t.toList ++ [')'] := by
    simp [String.toList_append]
  have opening : Text.Trimmed ['('] := ⟨by simp; decide, by simp; decide⟩
  have closing : Text.Trimmed [')'] := ⟨by simp; decide, by simp; decide⟩
  rw [chars]
  exact ⟨by simp, opening.append closing (List.cons_ne_nil _ _) (List.cons_ne_nil _ _) _⟩

/-- The parts of a condition that is a list, in brackets and joined. -/
theorem settled_of_parts {parts : List String} (nonempty : parts ≠ []) :
    Text.trim (Value.joined " or " (parts.map fun part => "(" ++ part ++ ")")) =
        Value.joined " or " (parts.map fun part => "(" ++ part ++ ")") ∧
      isFilled (Value.joined " or " (parts.map fun part => "(" ++ part ++ ")")) = true := by
  have some : (parts.map fun part => "(" ++ part ++ ")") ≠ [] := mt List.map_eq_nil_iff.1 nonempty
  have bracketed : ∀ part ∈ parts.map fun part => "(" ++ part ++ ")",
      part.toList ≠ [] ∧ Text.Trimmed part.toList := by
    intro part member
    obtain ⟨t, -, rfl⟩ := List.mem_map.1 member
    exact trimmed_bracketed t
  obtain ⟨filled, trimmed⟩ := Text.trimmed_joined some bracketed
  exact ⟨Text.trim_of_trimmed trimmed, isFilled_of_trimmed filled trimmed⟩

/-- A condition that is no list and counts as true is not shown as a blank. -/
theorem isFilled_coerced {v : Value} (present : hasCondition v = true)
    (noList : ∀ items, v ≠ .list items) : isFilled v.coerced = true := by
  by_cases text : ∃ s, v = .text s
  · obtain ⟨s, rfl⟩ := text
    exact present
  · have noText : ∀ s, v ≠ .text s := fun s same => text ⟨s, same⟩
    have truthy : v.truthy = true := by
      cases v with
      | text s => exact absurd rfl (noText s)
      | list items => exact absurd rfl (noList items)
      | _ => exact present
    exact congrArg not (Value.isBlankText_coerced truthy noText)

/-- A condition that is there is read without blanks at its ends, and is not blank. -/
theorem settled_of_conditionOf {v : Value} {s : String} (present : hasCondition v = true)
    (read : conditionOf v = .ok s) : Text.trim s = s ∧ isFilled s = true := by
  unfold conditionOf at read
  split at read
  · rename_i items
    dsimp only at read
    have nonempty : ((items.filterMap Value.text?).filter isFilled).map Text.trim ≠ [] := by
      obtain ⟨t, member, filled⟩ := List.any_eq_true.1 present
      exact List.ne_nil_of_mem (List.mem_map_of_mem (List.mem_filter.2 ⟨member, filled⟩))
    split at read
    · rename_i same
      cases read
      have member := List.mem_singleton_self s
      rw [← same] at member
      obtain ⟨t, inItems, rfl⟩ := List.mem_map.1 member
      exact ⟨Text.trim_trim t, (isFilled_trim t).trans (List.mem_filter.1 inItems).2⟩
    · cases read
      exact settled_of_parts nonempty
  · rename_i noList
    obtain ⟨t, coerced, read⟩ := bind_eq_ok.1 read
    cases read
    have filled : isFilled t = true := by
      rw [Value.eq_of_coerce coerced]
      exact isFilled_coerced present noList
    exact ⟨Text.trim_trim t, (isFilled_trim t).trans filled⟩

/-! ## Rules -/

/-- A rule that stays as it is when it is written and read again. -/
structure Rule.Settled (rule : Rule) : Prop where
  title : Text.trim rule.title = rule.title
  filled : isFilled rule.title = true
  id : Text.trim rule.id = rule.id
  named : rule.id ≠ ""
  detection : rule.detection.Settled
  level : ∃ s ∈ levels, rule.level = .text s
  status : ∃ s ∈ statuses, rule.status = .text s
  tags : "" ∉ rule.tags
  references : "" ∉ rule.references
  falsepositives : "" ∉ rule.falsepositives

theorem not_mem_textList {v : Value} {texts : List String} (read : textList v = .ok texts) :
    "" ∉ texts := by
  unfold textList at read
  obtain ⟨all, -, read⟩ := bind_eq_ok.1 read
  cases read
  exact fun member => absurd rfl (of_decide_eq_true (List.mem_filter.1 member).2)

/-- A choice is read as one of the texts, given that the default is one. -/
theorem choice_orElse {choices : List String} {v : Value} (choice : Choice choices v)
    {default : String} (listed : default ∈ choices) :
    ∃ s ∈ choices, v.orElse (.text default) = .text s := by
  unfold Value.orElse
  cases truthy : v.truthy with
  | false => exact ⟨default, listed, rfl⟩
  | true =>
      obtain ⟨s, member, rfl⟩ := choice.resolve_left (by simp [truthy])
      exact ⟨s, member, rfl⟩

/-- New names have no blanks at their ends, if the stem has none. -/
theorem trimmed_fresh {ids : Ids} (plain : Text.Trimmed ids.stem.toList) :
    Text.trim ids.fresh.1 = ids.fresh.1 ∧ ids.fresh.1 ≠ "" := by
  have name : ids.fresh.1.toList =
      ids.stem.toList ++ [] ++ ('-' :: Nat.toDigits 10 (ids.issued + 1)) := by
    simp [Ids.fresh, Ids.nameAt, Text.natText, Nat.toList_repr]
  have number : Text.Trimmed ('-' :: Nat.toDigits 10 (ids.issued + 1)) := by
    refine Text.trimmed_of_visible fun c member => ?_
    rcases List.mem_cons.1 member with rfl | digit
    · decide
    · exact Text.isBlank_of_isDigit (Text.isDigit_of_mem_toDigits c digit)
  have some : ids.fresh.1.toList ≠ [] := by
    rw [name]
    exact List.append_ne_nil_of_right_ne_nil _ (List.cons_ne_nil _ _)
  refine ⟨Text.trim_of_trimmed ?_, fun empty => some (by rw [empty]; rfl)⟩
  rw [name]
  by_cases stem : ids.stem.toList = []
  · rwa [stem]
  · exact plain.append number stem (List.cons_ne_nil _ _) _

theorem orFresh_settled {ids : Ids} (plain : Text.Trimmed ids.stem.toList) {name : String}
    (trimmed : Text.trim name = name) :
    Text.trim (ids.orFresh name).1 = (ids.orFresh name).1 ∧ (ids.orFresh name).1 ≠ "" := by
  unfold Ids.orFresh
  split
  · exact trimmed_fresh plain
  · rename_i named
    exact ⟨trimmed, named⟩

/-- Where the detection and the identifier of a draft come from. -/
theorem draft_ok {raw : Value} {draft : Draft} (read : Draft.ofValue raw = .ok draft) :
    draft.raw = raw ∧ Text.trim draft.id = draft.id ∧ ∃ entries,
      raw.demand "detection" = .ok (.map entries) ∧
        selectionsOf entries = .ok draft.detection.selections ∧
        conditionOf (Value.get entries "condition") = .ok draft.detection.condition := by
  obtain ⟨detection, demanded, read⟩ := bind_eq_ok.1 read
  obtain ⟨entries, items, read⟩ := bind_eq_ok.1 read
  obtain ⟨selections, ofSelections, read⟩ := bind_eq_ok.1 read
  obtain ⟨condition, ofCondition, read⟩ := bind_eq_ok.1 read
  obtain ⟨timeframe, -, read⟩ := bind_eq_ok.1 read
  obtain ⟨given, -, read⟩ := bind_eq_ok.1 read
  obtain ⟨text, -, read⟩ := bind_eq_ok.1 read
  cases read
  cases detection with
  | map inner =>
      cases items
      exact ⟨rfl, Text.trim_trim text, entries, demanded, ofSelections, ofCondition⟩
  | _ => cases items

/-- Where the parts of a rule come from. -/
theorem complete_ok {draft : Draft} {id : String} {rule : Rule}
    (read : draft.complete id = .ok rule) :
    rule.id = id ∧ rule.detection = draft.detection ∧
      (∃ v, draft.raw.demand "title" = .ok v ∧ v.trimmed = .ok rule.title) ∧
      (∃ v, draft.raw.getOf "level" = .ok v ∧ rule.level = v.orElse (.text "medium")) ∧
      (∃ v, draft.raw.getOf "status" = .ok v ∧ rule.status = v.orElse (.text "stable")) ∧
      "" ∉ rule.tags ∧ "" ∉ rule.references ∧ "" ∉ rule.falsepositives := by
  obtain ⟨given, demanded, read⟩ := bind_eq_ok.1 read
  obtain ⟨title, trimmed, read⟩ := bind_eq_ok.1 read
  obtain ⟨source, -, read⟩ := bind_eq_ok.1 read
  obtain ⟨logsource, -, read⟩ := bind_eq_ok.1 read
  obtain ⟨level, levelled, read⟩ := bind_eq_ok.1 read
  obtain ⟨status, staged, read⟩ := bind_eq_ok.1 read
  obtain ⟨tagged, -, read⟩ := bind_eq_ok.1 read
  obtain ⟨tags, ofTags, read⟩ := bind_eq_ok.1 read
  obtain ⟨author, -, read⟩ := bind_eq_ok.1 read
  obtain ⟨description, -, read⟩ := bind_eq_ok.1 read
  obtain ⟨day, -, read⟩ := bind_eq_ok.1 read
  obtain ⟨date, -, read⟩ := bind_eq_ok.1 read
  obtain ⟨listed, -, read⟩ := bind_eq_ok.1 read
  obtain ⟨references, ofReferences, read⟩ := bind_eq_ok.1 read
  obtain ⟨known, -, read⟩ := bind_eq_ok.1 read
  obtain ⟨positives, ofPositives, read⟩ := bind_eq_ok.1 read
  cases read
  exact ⟨rfl, rfl, ⟨given, demanded, trimmed⟩, ⟨level, levelled, rfl⟩, ⟨status, staged, rfl⟩,
    not_mem_textList ofTags, not_mem_textList ofReferences, not_mem_textList ofPositives⟩

/-- How a document is read. -/
theorem ofValue_ok {ids ids' : Ids} {raw : Value} {rule : Rule}
    (read : Rule.ofValue ids raw = (.ok rule, ids')) :
    ∃ draft, Draft.ofValue raw = .ok draft ∧ draft.complete (ids.orFresh draft.id).1 = .ok rule := by
  unfold Rule.ofValue at read
  split at read
  · cases read
  · rename_i draft drafted
    exact ⟨draft, drafted, congrArg Prod.fst read⟩

/-- The detection of a rule, whatever it was read from. -/
theorem Draft.keyed {raw : Value} {draft : Draft} (read : Draft.ofValue raw = .ok draft) :
    draft.detection.Keyed := by
  obtain ⟨-, -, entries, -, selections, -⟩ := draft_ok read
  exact keyed_of_selectionsOf selections _ _

theorem keyed_of_ofValue {ids ids' : Ids} {raw : Value} {rule : Rule}
    (read : Rule.ofValue ids raw = (.ok rule, ids')) : rule.detection.Keyed := by
  obtain ⟨draft, drafted, completed⟩ := ofValue_ok read
  obtain ⟨-, detection, -⟩ := complete_ok completed
  exact detection ▸ Draft.keyed drafted

/-- All values of floating point in the rule have the form in which they are made. -/
def Rule.Exact (rule : Rule) : Prop :=
  ∀ part ∈ rule.detection.selections, part.2.All Constraint.Exact

theorem exact_of_ofValue {ids ids' : Ids} {raw : Value} {rule : Rule} (exact : raw.Exact)
    (read : Rule.ofValue ids raw = (.ok rule, ids')) : rule.Exact := by
  obtain ⟨draft, drafted, completed⟩ := ofValue_ok read
  obtain ⟨rfl, -, entries, demanded, selections, -⟩ := draft_ok drafted
  obtain ⟨-, detection, -⟩ := complete_ok completed
  have exactDetection : (Value.map entries).Exact := by
    obtain ⟨whole, same, found⟩ := Value.getOf_eq_ok (Value.getOf_of_demand demanded)
    rw [found]
    exact Value.Exact.get (same ▸ exact) "detection"
  rw [Rule.Exact, detection]
  exact exact_of_selectionsOf exactDetection selections

/-- **The rule of a valid document is settled.** -/
theorem settled_of_ofValue {ids ids' : Ids} {raw : Value} {rule : Rule}
    (plain : Text.Trimmed ids.stem.toList) (valid : Valid raw)
    (read : Rule.ofValue ids raw = (.ok rule, ids')) : rule.Settled := by
  obtain ⟨draft, drafted, completed⟩ := ofValue_ok read
  obtain ⟨rfl, trimmedId, entries, demanded, selections, condition⟩ := draft_ok drafted
  obtain ⟨id, detection, ⟨title, demandedTitle, trimmedTitle⟩, ⟨level, levelled, ofLevel⟩,
    ⟨status, staged, ofStatus⟩, tags, references, positives⟩ := complete_ok completed
  obtain ⟨name, titled, filled⟩ := valid.title
  obtain ⟨inner, detected, validDetection⟩ := valid.detection
  obtain ⟨v, sameLevel, levelChoice⟩ := valid.level
  obtain ⟨w, sameStatus, statusChoice⟩ := valid.status
  -- what was demanded is what was found valid
  cases (Value.demand_eq_ok titled nofun).symm.trans demandedTitle
  cases (Value.demand_eq_ok detected nofun).symm.trans demanded
  cases sameLevel.symm.trans levelled
  cases sameStatus.symm.trans staged
  have name_trimmed : Text.trim name = rule.title := Except.ok.inj trimmedTitle
  obtain ⟨trimmed, filledCondition⟩ :=
    settled_of_conditionOf validDetection.condition condition
  obtain ⟨settledId, named⟩ := orFresh_settled plain trimmedId
  exact {
    title := name_trimmed ▸ Text.trim_trim name
    filled := name_trimmed ▸ (isFilled_trim name).trans filled
    id := id ▸ settledId
    named := id ▸ named
    detection := detection ▸ ⟨Draft.keyed drafted,
      settled_of_selectionsOf validDetection selections, trimmed, filledCondition⟩
    level := ofLevel ▸ choice_orElse levelChoice (by decide)
    status := ofStatus ▸ choice_orElse statusChoice (by decide)
    tags := tags
    references := references
    falsepositives := positives }

end Sigma

end LogAlert
