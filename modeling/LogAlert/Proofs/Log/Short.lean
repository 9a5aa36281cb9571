/-
# LogAlert.Proofs.Log.Short -- logs whose values can be shown

An entry that was read from data without long integers has none itself (`LogEntry.short_ofValue`), and
neither have the fields that rules see (`LogEntry.Short.fields`).  Fields come from the entry itself,
from its other keys and from the leaves of its metadata, and writing them under one name or another
changes no value; so what is true of the values there is true of all fields (`forall_fields`).
-/
import LogAlert.Log.Fields
import LogAlert.Proofs.Sigma.Matching
import LogAlert.Sigma.Applicability

set_option autoImplicit false

namespace LogAlert

/-! ## Writing fields -/

namespace Fields

variable {P : Value → Prop} {fields : Fields} {name : String} {value : Value}

theorem forall_put (all : ∀ field ∈ fields, P field.2) (own : P value) :
    ∀ field ∈ fields.put name value, P field.2 := by
  induction fields with
  | nil => exact List.forall_mem_singleton.2 own
  | cons first rest ih =>
      obtain ⟨one, others⟩ := List.forall_mem_cons.1 all
      rw [put]
      split
      · exact List.forall_mem_cons.2 ⟨own, others⟩
      · exact List.forall_mem_cons.2 ⟨one, ih others⟩

theorem forall_putNew (all : ∀ field ∈ fields, P field.2) (own : P value) :
    ∀ field ∈ fields.putNew name value, P field.2 := by
  unfold putNew
  split
  · exact all
  · exact forall_put all own

/-- Fields are written one after the other, in one of the two ways. -/
theorem forall_foldl {write : Fields → String × Value → Fields} {others : List (String × Value)}
    (step : ∀ fields other, (∀ field ∈ fields, P field.2) → P other.2 →
      ∀ field ∈ write fields other, P field.2)
    (all : ∀ field ∈ fields, P field.2) (more : ∀ other ∈ others, P other.2) :
    ∀ field ∈ others.foldl write fields, P field.2 :=
  List.foldlRecOn others write all fun fields each other member =>
    step fields other each (more other member)

theorem forall_putAll {others : List (String × Value)} (all : ∀ field ∈ fields, P field.2)
    (more : ∀ other ∈ others, P other.2) : ∀ field ∈ fields.putAll others, P field.2 :=
  forall_foldl (fun _ _ => forall_put) all more

end Fields

namespace LogEntry

variable {entry : LogEntry} {data : Value} {now : Time.Instant}

/-- What is true of the values of an entry, of its other keys and of the leaves of its metadata is
true of all of its fields. -/
theorem forall_fields {P : Value → Prop} (extra : ∀ field ∈ entry.extraFields, P field.2)
    (core : ∀ field ∈ entry.core, P field.2) (leaves : ∀ field ∈ entry.leaves, P field.2) :
    ∀ field ∈ entry.fields, P field.2 := by
  have nested : ∀ field ∈ Fields.putAll [] entry.leaves, P field.2 :=
    Fields.forall_putAll (List.forall_mem_nil _) leaves
  have own := Fields.forall_putAll (Fields.forall_putAll (List.forall_mem_nil _) extra) core
  refine Fields.forall_foldl (fun _ _ => Fields.forall_putNew) ?_ nested
  exact Fields.forall_putAll own (List.forall_mem_map.2 nested)

/-! ## Short entries -/

mutual

theorem leavesAt_short (path : String) : (v : Value) → v.overlong = false →
    ∀ field ∈ leavesAt path v, field.2.overlong = false
  | .map entries, short => leavesBelow_short path entries short
  | .null, _ | .bool _, _ | .text _, _ | .bytes _, _ | .float _, _ | .date _, _ | .time _, _ =>
      List.forall_mem_singleton.2 rfl
  | .int _, short | .list _, short | .pair _ _, short | .set _, short =>
      List.forall_mem_singleton.2 short

theorem leavesBelow_short (path : String) : (entries : List Value.Entry) →
    Value.overlongEntries entries = false →
    ∀ field ∈ leavesBelow path entries, field.2.overlong = false
  | [], _ => nofun
  | (k, v) :: rest, short => by
      have parts : (k.overlong = false ∧ v.overlong = false) ∧
          Value.overlongEntries rest = false := by
        simpa [Value.overlongEntries] using short
      rw [leavesBelow, List.forall_mem_append]
      exact ⟨leavesAt_short _ v parts.1.2, leavesBelow_short path rest parts.2⟩

end

/-- No value of the entry holds an integer that is too long to be shown. -/
structure Short (entry : LogEntry) : Prop where
  metadata : (Value.map entry.metadata).overlong = false
  traceId : entry.traceId.overlong = false
  projectId : entry.projectId.overlong = false
  id : entry.id.overlong = false
  extra : ∀ part ∈ entry.extra, part.2.overlong = false

theorem short_ofValue (short : data.overlong = false) (read : ofValue now data = .ok entry) :
    entry.Short := by
  obtain ⟨metadata, foundMetadata, read⟩ := bind_eq_ok.1 read
  obtain ⟨entries, rfl, rfl⟩ := Value.getOf_eq_ok foundMetadata
  simp only [Value.getOf, ok_bind] at read
  obtain ⟨time, -, read⟩ := bind_eq_ok.1 read
  obtain ⟨service, -, read⟩ := bind_eq_ok.1 read
  obtain ⟨level, -, read⟩ := bind_eq_ok.1 read
  obtain ⟨message, -, read⟩ := bind_eq_ok.1 read
  split at read
  case isFalse => cases read
  cases read
  have get (key : String) : (Value.get entries key).overlong = false := Value.overlong_get short key
  refine ⟨?_, get _, get _, get _, fun part member => ?_⟩
  · have whole := get "metadata"
    cases found : Value.get entries "metadata" with
    | map inner => exact found ▸ whole
    | _ => rfl
  · obtain ⟨⟨k, v⟩, inEntries, made⟩ := List.mem_filterMap.1 member
    obtain ⟨name, -, made⟩ := Option.bind_eq_some_iff.1 made
    split at made
    · cases made
    · cases made
      exact (Value.overlong_entry short _ inEntries).2

namespace Short

theorem identifiers (short : entry.Short) :
    ∀ field ∈ entry.identifiers, field.2.overlong = false := by
  have one {key : String} {v : Value} (own : v.overlong = false) :
      ∀ field ∈ optionalEntry key v, field.2.overlong = false := by
    unfold optionalEntry
    split
    · nofun
    · exact List.forall_mem_singleton.2 own
  simp only [LogEntry.identifiers, List.forall_mem_append]
  exact ⟨⟨one short.traceId, one short.projectId⟩, one short.id⟩

/-- The fields of a short entry can be shown. -/
theorem fields (short : entry.Short) : ∀ field ∈ entry.fields, field.2.overlong = false := by
  refine forall_fields (P := fun v => v.overlong = false) ?_ ?_
    (leavesBelow_short "" entry.metadata short.metadata)
  · refine List.forall_mem_map.2 fun part member => ?_
    exact (Value.overlong_dated part.2).trans (short.extra part (List.mem_filter.1 member).1)
  · rw [core, List.forall_mem_append]
    exact ⟨by simp [Value.overlong], short.identifiers⟩

theorem described (short : entry.Short) (key : String) :
    (entry.described key).overlong = false := by
  refine Value.overlong_orElse (Value.overlong_get short.metadata key) ?_
  cases found : entry.extra.lookup key with
  | none => rfl
  | some v => exact short.extra (key, v) (mem_of_lookup found)

/-- It can be decided whether a rule applies to a short entry. -/
theorem covers (short : entry.Short) (source : Sigma.LogSource) :
    ∃ b, source.covers entry = .ok b := by
  obtain ⟨product, ofProduct⟩ := Value.coerce_isOk_iff.2 (short.described "product")
  have orService : ((entry.described "category").orElse (.text entry.service)).overlong = false :=
    Value.overlong_orElse (short.described "category") rfl
  obtain ⟨category, ofCategory⟩ := Value.coerce_isOk_iff.2 orService
  unfold Sigma.LogSource.covers
  split
  · exact ⟨_, rfl⟩
  · rw [ofProduct, ok_bind, ofCategory]
    exact ⟨_, rfl⟩

end Short

end LogEntry

end LogAlert
