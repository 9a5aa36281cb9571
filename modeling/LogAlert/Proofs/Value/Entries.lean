/-
# LogAlert.Proofs.Value.Entries -- entries under names

Mappings are written entry by entry, and a later entry takes the place of an earlier one with the
same key.  `overwrite` and `collapse` say this of any items that have keys; what they leave has one
item for each key (`nodup_collapse`), and they change nothing if the keys are distinct already
(`collapse_of_nodup`).  The entries of a mapping whose keys are texts are `Value.named` parts, and
writing and looking up in it is writing and looking up among the parts.
-/
import LogAlert.Fault
import Mathlib.Data.List.Nodup

set_option autoImplicit false

namespace LogAlert

theorem mem_of_lookup {α β : Type} [BEq α] [LawfulBEq α] {parts : List (α × β)} {key : α} {b : β}
    (found : parts.lookup key = some b) : (key, b) ∈ parts := by
  obtain ⟨before, behind, rfl, -⟩ := List.lookup_eq_some_iff.1 found
  exact List.mem_append_right _ List.mem_cons_self

/-! ## Writing in place -/

section Collapse

variable {α : Type} (key : α → String)

/-- Write an item: in place of the one with the same key if there is one, else behind the others. -/
def overwrite (item : α) : List α → List α
  | [] => [item]
  | x :: rest => if key x = key item then item :: rest else x :: overwrite item rest

/-- One item for each key: the last one, at the place of the first one. -/
def collapse (items : List α) : List α := items.foldl (fun done x => overwrite key x done) []

variable {key} {item x : α} {items : List α}

theorem mem_overwrite (member : x ∈ overwrite key item items) : x = item ∨ x ∈ items := by
  induction items with
  | nil => exact .inl (List.mem_singleton.1 member)
  | cons y rest ih =>
      rw [overwrite] at member
      split at member
      · rcases List.mem_cons.1 member with rfl | behind
        · exact .inl rfl
        · exact .inr (List.mem_cons_of_mem _ behind)
      · rcases List.mem_cons.1 member with rfl | behind
        · exact .inr List.mem_cons_self
        · exact (ih behind).imp_right (List.mem_cons_of_mem _)

theorem overwrite_of_not_mem (new : key item ∉ items.map key) :
    overwrite key item items = items ++ [item] := by
  induction items with
  | nil => rfl
  | cons y rest ih =>
      rw [List.map_cons, List.mem_cons, not_or] at new
      rw [overwrite, if_neg (Ne.symm new.1), ih new.2, List.cons_append]

theorem keys_overwrite_of_mem (present : key item ∈ items.map key) :
    (overwrite key item items).map key = items.map key := by
  induction items with
  | nil => cases present
  | cons y rest ih =>
      rw [overwrite]
      split
      · rename_i same
        rw [List.map_cons, List.map_cons, same]
      · rename_i other
        have behind := (List.mem_cons.1 present).resolve_left (Ne.symm other)
        rw [List.map_cons, List.map_cons, ih behind]

theorem nodup_overwrite (distinct : (items.map key).Nodup) (item : α) :
    ((overwrite key item items).map key).Nodup := by
  by_cases present : key item ∈ items.map key
  · rwa [keys_overwrite_of_mem present]
  · rw [overwrite_of_not_mem present, List.map_append]
    exact distinct.append (List.nodup_singleton _) (List.disjoint_singleton.2 present)

theorem mem_foldl_overwrite {done : List α}
    (member : x ∈ items.foldl (fun done y => overwrite key y done) done) :
    x ∈ items ∨ x ∈ done := by
  induction items generalizing done with
  | nil => exact .inr member
  | cons y rest ih =>
      rcases ih member with behind | before
      · exact .inl (List.mem_cons_of_mem _ behind)
      · exact (mem_overwrite before).imp_left fun same => List.mem_cons.2 (.inl same)

theorem mem_collapse (member : x ∈ collapse key items) : x ∈ items :=
  (mem_foldl_overwrite member).resolve_right List.not_mem_nil

theorem nodup_collapse (items : List α) : ((collapse key items).map key).Nodup := by
  have kept (done : List α) (distinct : (done.map key).Nodup) :
      ((items.foldl (fun done y => overwrite key y done) done).map key).Nodup := by
    induction items generalizing done with
    | nil => exact distinct
    | cons y rest ih => exact ih _ (nodup_overwrite distinct y)
  exact kept [] List.nodup_nil

theorem foldl_overwrite_of_nodup {done : List α} (distinct : ((done ++ items).map key).Nodup) :
    items.foldl (fun done y => overwrite key y done) done = done ++ items := by
  induction items generalizing done with
  | nil => exact (List.append_nil done).symm
  | cons y rest ih =>
      have new : key y ∉ done.map key := by
        rw [List.map_append, List.map_cons] at distinct
        exact fun old => (List.nodup_append.1 distinct).2.2 _ old _ List.mem_cons_self rfl
      have moved : done ++ y :: rest = done ++ [y] ++ rest := List.append_cons done y rest
      rw [List.foldl_cons, overwrite_of_not_mem new, ih (moved ▸ distinct), moved]

/-- Items with distinct keys stay as they are. -/
theorem collapse_of_nodup (distinct : (items.map key).Nodup) : collapse key items = items :=
  foldl_overwrite_of_nodup distinct

theorem collapse_eq_self_iff : collapse key items = items ↔ (items.map key).Nodup :=
  ⟨fun same => same ▸ nodup_collapse items, collapse_of_nodup⟩

variable {β : Type} {key' : β → String} {f : α → β}

theorem overwrite_map (keys : ∀ x y, key' (f x) = key' (f y) ↔ key x = key y) (item : α)
    (items : List α) : overwrite key' (f item) (items.map f) = (overwrite key item items).map f := by
  induction items with
  | nil => rfl
  | cons y rest ih =>
      rw [List.map_cons, overwrite, overwrite, ih]
      simp only [keys]
      split <;> rfl

/-- Items can be changed before or after, if equal keys stay equal and others stay different. -/
theorem collapse_map (keys : ∀ x y, key' (f x) = key' (f y) ↔ key x = key y) (items : List α) :
    collapse key' (items.map f) = (collapse key items).map f := by
  have from_done (done : List α) :
      (items.map f).foldl (fun done y => overwrite key' y done) (done.map f) =
        (items.foldl (fun done y => overwrite key y done) done).map f := by
    induction items generalizing done with
    | nil => rfl
    | cons y rest ih => rw [List.map_cons, List.foldl_cons, overwrite_map keys, ih, List.foldl_cons]
  exact from_done []

end Collapse

/-! ## The last value under a name -/

/-- The value that stands last under a name. -/
def lastUnder {β : Type} (parts : List (String × β)) (name : String) : Option β :=
  parts.reverse.lookup name

section LastUnder

variable {β γ : Type}

theorem lookup_cons_eq (part : String × β) (rest : List (String × β)) (name : String) :
    (part :: rest).lookup name = if name = part.1 then some part.2 else rest.lookup name := by
  rw [List.lookup_cons]
  by_cases same : name = part.1
  · rw [if_pos same, beq_iff_eq.2 same]
  · rw [if_neg same, beq_eq_false_iff_ne.2 same]

theorem lastUnder_cons (part : String × β) (rest : List (String × β)) (name : String) :
    lastUnder (part :: rest) name =
      (lastUnder rest name).or (if name = part.1 then some part.2 else none) := by
  rw [lastUnder, List.reverse_cons, List.lookup_append, lookup_cons_eq, List.lookup_nil, lastUnder]

theorem lastUnder_append (parts more : List (String × β)) (name : String) :
    lastUnder (parts ++ more) name = (lastUnder more name).or (lastUnder parts name) := by
  rw [lastUnder, List.reverse_append, List.lookup_append, lastUnder, lastUnder]

theorem lastUnder_map_values (f : β → γ) (parts : List (String × β)) (name : String) :
    lastUnder (parts.map fun part => (part.1, f part.2)) name = (lastUnder parts name).map f := by
  induction parts with
  | nil => rfl
  | cons part rest ih =>
      rw [List.map_cons, lastUnder_cons, lastUnder_cons, ih, Option.map_or]
      split <;> rfl

/-- What was written at a name is found there, and everything else where it was. -/
theorem lookup_overwrite (part : String × β) (parts : List (String × β)) (name : String) :
    (overwrite Prod.fst part parts).lookup name =
      if name = part.1 then some part.2 else parts.lookup name := by
  induction parts with
  | nil => exact lookup_cons_eq part [] name
  | cons first rest ih =>
      rw [overwrite]
      split
      · rename_i same
        rw [lookup_cons_eq, lookup_cons_eq, same]
        split <;> rfl
      · rename_i other
        rw [lookup_cons_eq, lookup_cons_eq, ih]
        split
        · rename_i first
          rw [if_neg (first ▸ other)]
        · rfl

/-- Of what is written under a name, the last is found. -/
theorem lookup_foldl_overwrite (parts done : List (String × β)) (name : String) :
    (parts.foldl (fun done part => overwrite Prod.fst part done) done).lookup name =
      (lastUnder parts name).or (done.lookup name) := by
  induction parts generalizing done with
  | nil => rfl
  | cons part rest ih =>
      rw [List.foldl_cons, ih, lookup_overwrite, lastUnder_cons, Option.or_assoc]
      split <;> rfl

theorem lookup_collapse (parts : List (String × β)) (name : String) :
    (collapse Prod.fst parts).lookup name = lastUnder parts name := by
  rw [collapse, lookup_foldl_overwrite, List.lookup_nil, Option.or_none]

/-- Of the values under a name, the last one is kept. -/
theorem lastUnder_collapse (parts : List (String × β)) (name : String) :
    lastUnder (collapse Prod.fst parts) name = lastUnder parts name := by
  rw [← lookup_collapse, ← lookup_collapse, collapse_of_nodup (nodup_collapse parts)]

end LastUnder

namespace Value

/-! ## Entries under names -/

/-- Entries whose keys are texts. -/
def named (parts : List (String × Value)) : List Entry :=
  parts.map fun part => (.text part.1, part.2)

theorem same_text (s t : String) : (Value.text s).same (.text t) = (s == t) := rfl

theorem at?_named (parts : List (String × Value)) (name : String) :
    at? (named parts) name = parts.lookup name := by
  induction parts with
  | nil => rfl
  | cons part rest ih =>
      simp only [at?, lookupIn, named, List.map_cons, List.find?_cons, same_text] at ih ⊢
      rw [List.lookup_cons, ← ih, BEq.comm]
      cases name == part.1 <;> rfl

/-- Writing at a name is writing among the parts. -/
theorem insertIn_named (parts : List (String × Value)) (part : String × Value) :
    insertIn (named parts) (.text part.1) part.2 = named (overwrite Prod.fst part parts) := by
  induction parts with
  | nil => rfl
  | cons first rest ih =>
      rw [named, List.map_cons, insertIn, same_text, overwrite]
      by_cases same : first.1 = part.1
      · rw [if_pos (by simpa using same), if_pos same, same]
        rfl
      · rw [if_neg (by simpa using same), if_neg same]
        exact congrArg _ ih

theorem foldl_insertIn_named (parts done : List (String × Value)) :
    parts.foldl (fun entries part => insertIn entries (.text part.1) part.2) (named done) =
      named (parts.foldl (fun done part => overwrite Prod.fst part done) done) := by
  induction parts generalizing done with
  | nil => rfl
  | cons part rest ih => rw [List.foldl_cons, insertIn_named, ih, List.foldl_cons]

/-- A name that none of the first parts has is looked up among the others. -/
theorem get_named_append (parts more : List (String × Value)) {name : String}
    (other : name ∉ parts.map Prod.fst) : get (named (parts ++ more)) name = get (named more) name := by
  have absent : parts.lookup name = none := by
    refine List.lookup_eq_none_iff.2 fun part member => bne_iff_ne.2 ?_
    rintro rfl
    exact other (List.mem_map_of_mem member)
  rw [get, get, at?_named, at?_named, List.lookup_append, absent, Option.none_or]

theorem mem_named {parts : List (String × Value)} {entry : Entry} (member : entry ∈ named parts) :
    ∃ part ∈ parts, entry = (.text part.1, part.2) := by
  obtain ⟨part, inParts, same⟩ := List.mem_map.1 member
  exact ⟨part, inParts, same.symm⟩

/-! ## Keys of any value -/

/-- What is found at a key stands in an entry with the same key. -/
theorem mem_of_lookupIn {entries : List Entry} {key v : Value}
    (found : lookupIn entries key = some v) : ∃ k, (k, v) ∈ entries ∧ k.same key = true := by
  obtain ⟨entry, first, rfl⟩ := Option.map_eq_some_iff.1 found
  have here := List.find?_some first
  exact ⟨entry.1, List.mem_of_find?_eq_some first, here⟩

theorem get_eq_null_or_mem (entries : List Entry) (key : String) :
    get entries key = .null ∨ ∃ k, (k, get entries key) ∈ entries := by
  unfold get at?
  cases found : lookupIn entries (.text key) with
  | none => exact .inl rfl
  | some v =>
      obtain ⟨k, member, -⟩ := mem_of_lookupIn found
      exact .inr ⟨k, member⟩

theorem getOf_eq_ok {raw v : Value} {key : String} (found : raw.getOf key = .ok v) :
    ∃ entries, raw = .map entries ∧ v = get entries key := by
  cases raw with
  | map entries =>
      cases found
      exact ⟨entries, rfl, rfl⟩
  | _ => cases found

/-- What is there and is not null can be demanded. -/
theorem demand_eq_ok {raw v : Value} {key : String} (found : raw.getOf key = .ok v)
    (present : v ≠ .null) : raw.demand key = .ok v := by
  obtain ⟨entries, rfl, rfl⟩ := getOf_eq_ok found
  rw [demand]
  cases looked : at? entries key with
  | some w => simp only [get, looked, Option.getD_some]
  | none => exact absurd (by simp [get, looked]) present

/-- What was demanded is there. -/
theorem getOf_of_demand {raw v : Value} {key : String} (demanded : raw.demand key = .ok v) :
    raw.getOf key = .ok v := by
  cases raw with
  | map entries =>
      rw [demand] at demanded
      cases looked : at? entries key with
      | none =>
          rw [looked] at demanded
          cases demanded
      | some w =>
          rw [looked] at demanded
          cases demanded
          rw [getOf, get, looked, Option.getD_some]
  | _ => cases demanded

end Value

end LogAlert
