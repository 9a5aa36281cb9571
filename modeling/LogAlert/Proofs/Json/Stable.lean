/-
# LogAlert.Proofs.Json.Stable -- what comes back from a column

A value that is written to a column of JSON texts comes back as `reread` of it (`column_ok`).  Lists
of values that come back as they were do so, too, and mappings if their keys are distinct texts
(`reread_named_of_stable`).  Whatever comes back holds no integer that is too long to be shown
(`overlong_reread`).
-/
import LogAlert.Proofs.Json.RoundTrip
import LogAlert.Proofs.Value.Entries
import LogAlert.Store.Rules

set_option autoImplicit false

namespace LogAlert

/-! ## What comes back as it was -/

namespace Json

theorem rereadItems_eq_map (items : List Value) : rereadItems items = items.map reread := by
  induction items with
  | nil => rfl
  | cons v rest ih => rw [rereadItems, ih, List.map_cons]

theorem reread_list {items : List Value} (each : ∀ v ∈ items, reread v = v) :
    reread (.list items) = .list items := by
  rw [reread, rereadItems_eq_map, List.map_congr_left each, List.map_id']

theorem reread_texts (items : List String) : reread (Value.texts items) = Value.texts items := by
  refine reread_list fun v member => ?_
  obtain ⟨s, -, rfl⟩ := List.mem_map.1 member
  rfl

/-- The parts of a mapping that comes back: keys have become texts. -/
def rereadParts (entries : List Value.Entry) : List (String × Value) :=
  entries.map fun entry => (keyName entry.1, reread entry.2)

theorem rereadEntries_named (entries : List Value.Entry) (done : List (String × Value)) :
    rereadEntries (Value.named done) entries =
      Value.named ((rereadParts entries).foldl (fun done part => overwrite Prod.fst part done)
        done) := by
  induction entries generalizing done with
  | nil => rfl
  | cons entry rest ih =>
      obtain ⟨k, v⟩ := entry
      rw [rereadEntries, Value.insertIn_named done (keyName k, reread v), ih]
      rfl

theorem reread_map (entries : List Value.Entry) :
    reread (.map entries) = .map (Value.named (collapse Prod.fst (rereadParts entries))) := by
  rw [reread]
  exact congrArg Value.map (rereadEntries_named entries [])

/-- Parts under distinct names come back one by one. -/
theorem reread_named {parts : List (String × Value)} (distinct : (parts.map Prod.fst).Nodup) :
    reread (.map (Value.named parts)) =
      .map (Value.named (parts.map fun part => (part.1, reread part.2))) := by
  have same : rereadParts (Value.named parts) = parts.map fun part => (part.1, reread part.2) := by
    rw [rereadParts, Value.named, List.map_map]
    rfl
  have keys : ((rereadParts (Value.named parts)).map Prod.fst).Nodup := by
    rwa [same, List.map_map, show Prod.fst ∘ (fun part : String × Value => (part.1, reread part.2)) =
      Prod.fst from rfl]
  rw [reread_map, collapse_of_nodup keys, same]

theorem reread_named_of_stable {parts : List (String × Value)}
    (distinct : (parts.map Prod.fst).Nodup) (each : ∀ part ∈ parts, reread part.2 = part.2) :
    reread (.map (Value.named parts)) = .map (Value.named parts) := by
  have same : ∀ part ∈ parts, (part.1, reread part.2) = part :=
    fun part member => Prod.ext rfl (each part member)
  rw [reread_named distinct, List.map_congr_left same, List.map_id']

/-! ## Integers that are too long -/

theorem overlongList_eq_false {items : List Value} :
    Value.overlongList items = false ↔ ∀ v ∈ items, v.overlong = false := by
  induction items with
  | nil => simp [Value.overlongList]
  | cons v rest ih => simp [Value.overlongList, ih]

theorem overlongEntries_eq_false {entries : List Value.Entry} :
    Value.overlongEntries entries = false ↔
      ∀ entry ∈ entries, entry.1.overlong = false ∧ entry.2.overlong = false := by
  induction entries with
  | nil => simp [Value.overlongEntries]
  | cons entry rest ih =>
      obtain ⟨k, v⟩ := entry
      simp [Value.overlongEntries, ih, and_assoc]

theorem overlong_named {parts : List (String × Value)}
    (each : ∀ part ∈ parts, part.2.overlong = false) :
    (Value.map (Value.named parts)).overlong = false := by
  refine overlongEntries_eq_false.2 fun entry member => ?_
  obtain ⟨part, inParts, rfl⟩ := Value.mem_named member
  exact ⟨rfl, each part inParts⟩

section Printed

variable {strays : Strays}

theorem overlong_items {items : List Value} {parts : List (List Char)}
    (printed : itemsChars strays items = .ok parts)
    (each : ∀ w ∈ items, ∀ cs, chars strays w = .ok cs → (reread w).overlong = false) :
    ∀ w ∈ items, (reread w).overlong = false := by
  induction items generalizing parts with
  | nil => nofun
  | cons w rest ih =>
      obtain ⟨x, xs, -, one, others⟩ := itemsChars_cons printed
      intro u member
      rcases List.mem_cons.1 member with rfl | behind
      · exact each u List.mem_cons_self x one
      · exact ih others (fun w member => each w (List.mem_cons_of_mem _ member)) u behind

theorem overlong_entries {entries : List Value.Entry} {parts : List (List Char)}
    (printed : entriesChars strays entries = .ok parts)
    (each : ∀ entry ∈ entries, ∀ cs, chars strays entry.2 = .ok cs →
      (reread entry.2).overlong = false) :
    ∀ entry ∈ entries, (reread entry.2).overlong = false := by
  induction entries generalizing parts with
  | nil => nofun
  | cons entry rest ih =>
      obtain ⟨x, xs, -, one, others⟩ := entriesChars_cons printed
      intro u member
      rcases List.mem_cons.1 member with rfl | behind
      · exact each u List.mem_cons_self x one
      · exact ih others (fun w member => each w (List.mem_cons_of_mem _ member)) u behind

end Printed

/-- **What comes back is not too long to be shown.** -/
theorem overlong_reread {strays : Strays} (v : Value) {cs : List Char}
    (printed : chars strays v = .ok cs) : (reread v).overlong = false := by
  match v with
  | .null | .bool _ | .float _ | .text _ | .bytes _ | .date _ | .time _ | .set _ => rfl
  | .int n =>
      rw [chars] at printed
      obtain ⟨-, short⟩ := intText_eq_ok printed
      exact decide_eq_false (Nat.not_lt.2 short)
  | .list items =>
      obtain ⟨parts, inner, -⟩ := bind_eq_ok.1 printed
      have each := overlong_items inner fun w member _ one => overlong_reread w one
      rw [reread, rereadItems_eq_map, Value.overlong]
      refine overlongList_eq_false.2 fun u member => ?_
      obtain ⟨w, inItems, rfl⟩ := List.mem_map.1 member
      exact each w inItems
  | .pair a b =>
      obtain ⟨x, one, printed⟩ := bind_eq_ok.1 printed
      obtain ⟨y, two, -⟩ := bind_eq_ok.1 printed
      have left := overlong_reread a one
      have right := overlong_reread b two
      rw [reread, Value.overlong]
      simp [Value.overlongList, left, right]
  | .map entries =>
      obtain ⟨parts, inner, -⟩ := bind_eq_ok.1 printed
      have each := overlong_entries inner fun entry member _ one => overlong_reread entry.2 one
      rw [reread_map]
      refine overlong_named fun part member => ?_
      obtain ⟨entry, inEntries, rfl⟩ := List.mem_map.1 (mem_collapse member)
      exact each entry inEntries
termination_by sizeOf v
decreasing_by
  · have smaller := List.sizeOf_lt_of_mem member
    rw [Value.list.sizeOf_spec]
    omega
  · rw [Value.pair.sizeOf_spec]
    omega
  · rw [Value.pair.sizeOf_spec]
    omega
  · have smaller := List.sizeOf_lt_of_mem member
    have part : sizeOf entry.2 < sizeOf entry := by
      rw [Prod.mk.sizeOf_spec]
      omega
    rw [Value.map.sizeOf_spec]
    omega

end Json

/-! ## Columns -/

/-- What comes back from a column. -/
theorem Store.column_ok {v w : Value} (stored : Store.column v = .ok w) :
    w = Json.reread v ∧ w.overlong = false := by
  unfold column at stored
  split at stored
  · cases stored
  · rename_i text printed
    rw [Json.read?_print (by rintro _ ⟨⟩; exact Nat.le_refl _) printed] at stored
    cases stored
    refine ⟨rfl, ?_⟩
    rw [Json.print] at printed
    cases written : Json.chars .refused v with
    | error _ =>
        rw [written] at printed
        cases printed
    | ok cs => exact Json.overlong_reread v written

end LogAlert
