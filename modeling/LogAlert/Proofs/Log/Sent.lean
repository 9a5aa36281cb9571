/-
# LogAlert.Proofs.Log.Sent -- log entries are read back as they were

A log entry is sent as a mapping that holds its own parts behind its other entries.  An entry that was
read from JSON, by a clock that shows a date, is `Sendable`: its time has a text, its data are JSON,
and its other keys are distinct and none of those that it is read from (`sendable_ofValue`).  The
mapping that such an entry is sent as is JSON again (`Sendable.isJson_toValue`), and whoever reads it
gets this very entry, at any time (`Sendable.ofValue_toValue`).
-/
import LogAlert.Log.Entry
import LogAlert.Proofs.Json.Data
import LogAlert.Proofs.Text.Normal
import LogAlert.Proofs.Time.Printed

set_option autoImplicit false

namespace LogAlert

namespace LogEntry

variable {now : Time.Instant} {entry : LogEntry} {data : Value}

/-! ## Times -/

/-- The time that JSON stands for has a text. -/
theorem proper_timeOf (dated : now.hasDate = true) (json : data.IsJson) {t : Time.DateTime}
    (found : timeOf now data = .ok t) : t.Proper := by
  have present : now.dateTime.Proper := Time.Instant.proper_dateTime dated
  cases json with
  | null | list _ | map _ _ =>
      cases found
      exact present
  | bool truth => exact Time.proper_ofSeconds (by decide) found
  | int short => exact Time.proper_ofSeconds (by decide) found
  | float canonical => exact Time.proper_ofStamp found
  | text chars =>
      rw [timeOf] at found
      split at found
      · cases found
        exact present
      · rw [timeOfText] at found
        split at found
        · rename_i read
          cases found
          exact Time.Iso.proper_read read
        · cases found
        · cases found

/-- The text of a time stands for this time. -/
theorem timeOf_text {t : Time.DateTime} (proper : t.Proper) : timeOf now (.text t.text) = .ok t := by
  have own := Time.isTimeChar_text t
  have visible : ∀ c ∈ t.text.toList, Text.isBlank c = false ∧ c ≠ 'Z' := fun c member =>
    Time.visible_of_isTimeChar (List.all_eq_true.1 own c member)
  have trimmed : Text.trim t.text = t.text :=
    Text.trim_of_trimmed (Text.trimmed_of_visible fun c member => (visible c member).1)
  have noZulu : zuluAsOffset t.text = t.text := by
    unfold zuluAsOffset
    split
    · rename_i rest zulu
      have last : 'Z' ∈ t.text.toList := List.mem_reverse.1 (zulu ▸ List.mem_cons_self)
      exact absurd rfl (visible 'Z' last).2
    · rfl
  have nonempty : t.text ≠ "" := by
    intro empty
    have mark : 'T' ∈ t.text.toList := by simp [Time.DateTime.text]
    rw [empty] at mark
    cases mark
  have known : t.orUniversal = t := by
    obtain ⟨offset, known, -⟩ := proper.offset
    rw [Time.DateTime.orUniversal, known, Option.getD_some, ← known]
  rw [timeOf, trimmed, if_neg nonempty, noZulu, timeOfText, Time.Iso.read_text proper]
  exact congrArg Except.ok known

/-! ## Entries that can be sent -/

/-- The keys of JSON are texts, and texts can be shown. -/
theorem nameable_of_isJson (json : data.IsJson) : nameable data = true := by
  induction json with
  | null | bool | int | float | text | list => rfl
  | @map parts distinct each ih =>
      rw [nameable]
      clear distinct each
      induction parts with
      | nil => rfl
      | cons part rest more =>
          rw [List.forall_mem_cons] at ih
          rw [Value.named, List.map_cons, nameableBelow, ih.1]
          exact more ih.2

/-- What has to be known of an entry before it is sent. -/
structure Sendable (entry : LogEntry) : Prop where
  time : entry.time.Proper
  metadata : (Value.map entry.metadata).IsJson
  traceId : entry.traceId.IsJson
  projectId : entry.projectId.IsJson
  id : entry.id.IsJson
  distinct : (entry.extra.map Prod.fst).Nodup
  other : ∀ part ∈ entry.extra, part.1 ∉ knownKeys
  extra : ∀ part ∈ entry.extra, part.2.IsJson

theorem extraOf_named (parts : List (String × Value)) :
    extraOf (Value.named parts) = parts.filter fun part => part.1 ∉ knownKeys := by
  induction parts with
  | nil => rfl
  | cons part rest ih =>
      rw [extraOf, Value.named] at ih ⊢
      by_cases known : part.1 ∈ knownKeys
      · rw [List.map_cons, List.filterMap_cons_none (by simp [Value.text?, known]), ih,
          List.filter_cons_of_neg (by simpa using known)]
      · rw [List.map_cons, List.filterMap_cons_some (b := part) (by simp [Value.text?, known]), ih,
          List.filter_cons_of_pos (by simpa using known)]

/-- The entry was read from JSON, by a clock that showed a date. -/
def Received (entry : LogEntry) : Prop :=
  ∃ (now : Time.Instant) (data : Value), now.hasDate = true ∧ data.IsJson ∧
    ofValue now data = .ok entry

/-- **An entry that was read from JSON can be sent.** -/
theorem sendable_ofValue (dated : now.hasDate = true) (json : data.IsJson)
    (read : ofValue now data = .ok entry) : entry.Sendable := by
  obtain ⟨metadata, foundMetadata, read⟩ := bind_eq_ok.1 read
  obtain ⟨entries, rfl, rfl⟩ := Value.getOf_eq_ok foundMetadata
  obtain ⟨parts, rfl, distinct, each⟩ := json.parts
  simp only [Value.getOf, ok_bind] at read
  obtain ⟨time, timed, read⟩ := bind_eq_ok.1 read
  obtain ⟨service, -, read⟩ := bind_eq_ok.1 read
  obtain ⟨level, -, read⟩ := bind_eq_ok.1 read
  obtain ⟨message, -, read⟩ := bind_eq_ok.1 read
  split at read
  case isFalse => cases read
  cases read
  have metadata : (Value.map ((Value.get (Value.named parts) "metadata").entries?.getD [])).IsJson := by
    have whole := json.get "metadata"
    cases found : Value.get (Value.named parts) "metadata" with
    | map entries => exact found ▸ whole
    | _ => exact .empty
  have others : extraOf ((Value.map (Value.named parts)).entries?.getD []) =
      parts.filter fun part => part.1 ∉ knownKeys := extraOf_named parts
  refine ⟨proper_timeOf dated (json.get "time") timed, metadata, json.get _, json.get _, json.get _,
    ?_, ?_, ?_⟩
  · show ((extraOf _).map Prod.fst).Nodup
    rw [others]
    exact distinct.sublist (List.filter_sublist.map Prod.fst)
  · show ∀ part ∈ extraOf _, _
    rw [others]
    exact fun part member => of_decide_eq_true (List.mem_filter.1 member).2
  · show ∀ part ∈ extraOf _, _
    rw [others]
    exact fun part member => each part (List.mem_filter.1 member).1

theorem Received.sendable (received : entry.Received) : entry.Sendable :=
  have ⟨_, _, dated, json, read⟩ := received
  sendable_ofValue dated json read

/-! ## The mapping that an entry is sent as -/

/-- The parts under the keys that an entry is read from. -/
def parts (entry : LogEntry) : List (String × Value) :=
  [("time", .text entry.time.text), ("service", .text entry.service), ("level", .text entry.level),
    ("message", .text entry.message), ("metadata", .map entry.metadata)] ++ entry.identifiers

theorem names_optionalEntry (key : String) (v : Value) :
    ((optionalEntry key v).map Prod.fst).Sublist [key] := by
  unfold optionalEntry
  split
  · exact List.nil_sublist _
  · exact List.Sublist.refl _

theorem names_parts (entry : LogEntry) : (entry.parts.map Prod.fst).Sublist knownKeys := by
  have identifiers : (entry.identifiers.map Prod.fst).Sublist ["trace_id", "project_id", "id"] := by
    rw [identifiers, List.map_append, List.map_append]
    exact ((names_optionalEntry _ _).append (names_optionalEntry _ _)).append
      (names_optionalEntry _ _)
  rw [parts, List.map_append]
  exact (List.Sublist.refl ["time", "service", "level", "message", "metadata"]).append identifiers

namespace Sendable

theorem nodup_names (sendable : entry.Sendable) :
    ((entry.extra ++ entry.parts).map Prod.fst).Nodup := by
  have known : (entry.parts.map Prod.fst).Nodup := .sublist (names_parts entry) (by decide)
  rw [List.map_append]
  refine sendable.distinct.append known fun name member own => ?_
  obtain ⟨part, inExtra, rfl⟩ := List.mem_map.1 member
  exact sendable.other part inExtra ((names_parts entry).subset own)

/-- The parts of an entry stand behind its other entries. -/
theorem toValue_eq (sendable : entry.Sendable) :
    entry.toValue = .map (Value.named (entry.extra ++ entry.parts)) := by
  rw [← foldl_overwrite_of_nodup sendable.nodup_names, ← Value.foldl_insertIn_named]
  rfl

theorem isJson_toValue (sendable : entry.Sendable) : entry.toValue.IsJson := by
  rw [sendable.toValue_eq]
  refine .map sendable.nodup_names ?_
  have identifier {key : String} {v : Value} (json : v.IsJson) :
      ∀ part ∈ optionalEntry key v, part.2.IsJson := by
    unfold optionalEntry
    split
    · nofun
    · simpa using json
  simp only [parts, identifiers, List.forall_mem_append, List.forall_mem_cons]
  exact ⟨sendable.extra, ⟨.text _, .text _, .text _, .text _, sendable.metadata, nofun⟩,
    ⟨identifier sendable.traceId, identifier sendable.projectId⟩, identifier sendable.id⟩

end Sendable

/-! ## Reading it -/

theorem get_optionalEntry {key : String} (v : Value) {rest : List (String × Value)}
    (absent : key ∉ rest.map Prod.fst) :
    Value.get (Value.named (optionalEntry key v ++ rest)) key = v := by
  unfold optionalEntry
  split
  · rename_i null
    cases v with
    | null =>
        have skipped := Value.get_named_append rest [] absent
        rw [List.append_nil] at skipped
        rw [List.nil_append, skipped]
        rfl
    | _ => cases null
  · rw [Value.get, Value.at?_named]
    simp

theorem get_optionalEntry_other {key name : String} (different : name ≠ key) (v : Value)
    (rest : List (String × Value)) :
    Value.get (Value.named (optionalEntry key v ++ rest)) name =
      Value.get (Value.named rest) name :=
  Value.get_named_append _ rest fun member =>
    different (List.mem_singleton.1 ((names_optionalEntry key v).subset member))

/-- The identifiers are found again, those that are null by their absence. -/
theorem get_identifiers (entry : LogEntry) :
    Value.get (Value.named entry.identifiers) "trace_id" = entry.traceId ∧
      Value.get (Value.named entry.identifiers) "project_id" = entry.projectId ∧
      Value.get (Value.named entry.identifiers) "id" = entry.id := by
  have last := names_optionalEntry "id" entry.id
  have lastTwo : ((optionalEntry "project_id" entry.projectId ++
      optionalEntry "id" entry.id).map Prod.fst).Sublist ["project_id", "id"] := by
    rw [List.map_append]
    exact (names_optionalEntry _ _).append last
  rw [identifiers, List.append_assoc]
  refine ⟨get_optionalEntry _ fun member => ?_, ?_, ?_⟩
  · exact absurd (lastTwo.subset member) (by decide)
  · rw [get_optionalEntry_other (by decide)]
    exact get_optionalEntry _ fun member => absurd (last.subset member) (by decide)
  · rw [get_optionalEntry_other (by decide), get_optionalEntry_other (by decide)]
    have alone : Value.get (Value.named (optionalEntry "id" entry.id ++ [])) "id" = entry.id :=
      get_optionalEntry entry.id (by simp)
    rwa [List.append_nil] at alone

namespace Sendable

/-- Under a known key the mapping has what the entry says, whatever its other entries are. -/
theorem getOf_toValue (sendable : entry.Sendable) {key : String} (known : key ∈ knownKeys) :
    entry.toValue.getOf key = .ok (Value.get (Value.named entry.parts) key) := by
  rw [sendable.toValue_eq, Value.getOf, Value.get_named_append _ _ fun member => ?_]
  obtain ⟨part, inExtra, rfl⟩ := List.mem_map.1 member
  exact sendable.other part inExtra known

/-- The other entries of the mapping are those of the entry. -/
theorem extraOf_toValue (sendable : entry.Sendable) :
    extraOf (entry.toValue.entries?.getD []) = entry.extra := by
  have kept : entry.extra.filter (fun part => part.1 ∉ knownKeys) = entry.extra :=
    List.filter_eq_self.2 fun part member => decide_eq_true (sendable.other part member)
  have dropped : entry.parts.filter (fun part => part.1 ∉ knownKeys) = [] :=
    List.filter_eq_nil_iff.2 fun part member => by
      simpa using (names_parts entry).subset (List.mem_map_of_mem member)
  have others := extraOf_named (entry.extra ++ entry.parts)
  rw [List.filter_append, kept, dropped, List.append_nil] at others
  rw [sendable.toValue_eq]
  exact others

/-- **A sent entry is read back as it was**, whenever that is. -/
theorem ofValue_toValue (sendable : entry.Sendable) (now : Time.Instant) :
    ofValue now entry.toValue = .ok entry := by
  have own : ∀ key ∈ ["trace_id", "project_id", "id"],
      Value.get (Value.named entry.parts) key = Value.get (Value.named entry.identifiers) key := by
    intro key member
    refine Value.get_named_append _ _ fun fixed => ?_
    simp only [List.mem_cons, List.not_mem_nil, or_false] at member
    rcases member with rfl | rfl | rfl <;> simp at fixed
  obtain ⟨traceId, projectId, id⟩ := get_identifiers entry
  have metadata : entry.toValue.getOf "metadata" = .ok (.map entry.metadata) :=
    sendable.getOf_toValue (by decide)
  have time : entry.toValue.getOf "time" = .ok (.text entry.time.text) :=
    sendable.getOf_toValue (by decide)
  have service : entry.toValue.getOf "service" = .ok (.text entry.service) :=
    sendable.getOf_toValue (by decide)
  have level : entry.toValue.getOf "level" = .ok (.text entry.level) :=
    sendable.getOf_toValue (by decide)
  have message : entry.toValue.getOf "message" = .ok (.text entry.message) :=
    sendable.getOf_toValue (by decide)
  have coerced (s : String) : (Value.text s).coerce = .ok s := rfl
  rw [ofValue, metadata, ok_bind, time, ok_bind, timeOf_text sendable.time, ok_bind, service, ok_bind,
    coerced, ok_bind, level, ok_bind, coerced, ok_bind, message, ok_bind, coerced, ok_bind,
    sendable.getOf_toValue (by decide), ok_bind, own _ (by decide), traceId,
    sendable.getOf_toValue (by decide), ok_bind, own _ (by decide), projectId,
    sendable.getOf_toValue (by decide), ok_bind, own _ (by decide), id, sendable.extraOf_toValue]
  exact if_pos (nameable_of_isJson sendable.metadata)

end Sendable

end LogEntry

end LogAlert
