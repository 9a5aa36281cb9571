/-
# LogAlert.Proofs.Yaml.Floats -- values of floating point in documents

`Value.Floats v x` says that the value `x` of floating point stands in `v`, as a part that is no
key.  All those that stand in the value of a YAML text have the form in which such values are made
(`load_exact`): they are read from decimal numbers, or computed from such.
-/
import LogAlert.Proofs.Number.Rounding
import LogAlert.Proofs.Yaml.Values

set_option autoImplicit false

namespace LogAlert

namespace Value

/-- The value of floating point is a part of the datum, in lists and behind keys. -/
inductive Floats : Value → Binary64 → Prop where
  | self (x : Binary64) : Floats (.float x) x
  | item {items : List Value} {v : Value} {x : Binary64} (member : v ∈ items)
    (part : Floats v x) : Floats (.list items) x
  | entry {entries : List Entry} {entry : Entry} {x : Binary64} (member : entry ∈ entries)
    (part : Floats entry.2 x) : Floats (.map entries) x

/-- All values of floating point in the datum have the form in which they are made. -/
def Exact (v : Value) : Prop := ∀ x, v.Floats x → x.Canonical

theorem exact_float {x : Binary64} (canonical : x.Canonical) : (Value.float x).Exact := by
  rintro _ ⟨⟩
  exact canonical

theorem exact_list {items : List Value} (each : ∀ v ∈ items, v.Exact) :
    (Value.list items).Exact := by
  rintro x ⟨⟩
  rename_i member part
  exact each _ member x part

theorem exact_map {entries : List Entry} (each : ∀ entry ∈ entries, entry.2.Exact) :
    (Value.map entries).Exact := by
  rintro x ⟨⟩
  rename_i member part
  exact each _ member x part

theorem Exact.item {items : List Value} (exact : (Value.list items).Exact) {v : Value}
    (member : v ∈ items) : v.Exact := fun x part => exact x (.item member part)

theorem Exact.entry {entries : List Entry} (exact : (Value.map entries).Exact) {entry : Entry}
    (member : entry ∈ entries) : entry.2.Exact := fun x part => exact x (.entry member part)

/-- What is written at a key is the new value there, and nothing else changes. -/
theorem mem_insertIn {entries : List Entry} {key value : Value} {entry : Entry}
    (member : entry ∈ insertIn entries key value) : entry.2 = value ∨ entry ∈ entries := by
  induction entries with
  | nil =>
      rw [insertIn, List.mem_singleton] at member
      exact .inl (congrArg Prod.snd member)
  | cons first rest ih =>
      rw [insertIn] at member
      split at member
      · rcases List.mem_cons.1 member with rfl | behind
        · exact .inl rfl
        · exact .inr (List.mem_cons_of_mem _ behind)
      · rcases List.mem_cons.1 member with rfl | behind
        · exact .inr List.mem_cons_self
        · exact (ih behind).imp_right (List.mem_cons_of_mem _)

theorem mem_foldl_insertIn {pairs entries : List Entry} {entry : Entry}
    (member : entry ∈ pairs.foldl (fun done (k, v) => insertIn done k v) entries) :
    (∃ pair ∈ pairs, entry.2 = pair.2) ∨ entry ∈ entries := by
  induction pairs generalizing entries with
  | nil => exact .inr member
  | cons pair pairs ih =>
      rcases ih member with ⟨other, behind, same⟩ | before
      · exact .inl ⟨other, List.mem_cons_of_mem _ behind, same⟩
      · exact (mem_insertIn before).imp_left fun same => ⟨pair, List.mem_cons_self, same⟩

end Value

namespace Yaml

/-! ## Scalars -/

theorem canonical_of_floatIn {chars : List Char} {x : Binary64} (read : floatIn chars = .ok x) :
    x.Canonical := by
  unfold floatIn at read
  dsimp only at read
  split at read
  · rename_i found
    cases read
    exact Binary64.canonical_of_read? found
  · cases read

theorem canonical_of_sexagesimalSum {places : List Binary64} {unit : Int} {sum x : Binary64}
    (canonical : sum.Canonical) (summed : sexagesimalSum places unit sum = .ok x) :
    x.Canonical := by
  induction places generalizing unit sum with
  | nil =>
      cases summed
      exact canonical
  | cons place rest ih =>
      rw [sexagesimalSum] at summed
      split at summed
      · exact ih (Binary64.canonical_add _ _) summed
      · cases summed

theorem canonical_of_floatValue {text : String} {x : Binary64} (read : floatValue text = .ok x) :
    x.Canonical := by
  have signed {size : Binary64} (canonical : size.Canonical) (negative : Prop)
      [Decidable negative] : (if negative then size.neg else size).Canonical := by
    split
    · exact canonical.neg
    · exact canonical
  rw [floatValue] at read
  -- which characters these are does not matter
  generalize (Text.lower (String.ofList (withoutGroups text))).toList = chars at read
  generalize ".inf".toList = infinity, ".nan".toList = undefined at read
  dsimp only at read
  split at read
  · cases read
  split at read
  · cases read
    exact trivial
  split at read
  · cases read
    exact trivial
  split at read
  · obtain ⟨places, -, read⟩ := bind_eq_ok.1 read
    obtain ⟨size, summed, read⟩ := bind_eq_ok.1 read
    cases read
    exact signed (canonical_of_sexagesimalSum (Binary64.canonical_zero false) summed) _
  · obtain ⟨size, found, read⟩ := bind_eq_ok.1 read
    cases read
    exact signed (canonical_of_floatIn found) _

theorem ScalarMade.exact {v : Value} (made : ScalarMade v) : v.Exact := by
  cases made with
  | float read => exact Value.exact_float (canonical_of_floatValue read)
  | _ => rintro _ ⟨⟩

theorem Made.exact {v : Value} (made : Made v) : v.Exact := by
  induction made with
  | scalar made => exact made.exact
  | list _ ih => exact Value.exact_list ih
  | ordered each =>
      refine Value.exact_list fun pair member => ?_
      obtain ⟨_, _, rfl⟩ := each pair member
      rintro _ ⟨⟩
  | set items => rintro _ ⟨⟩
  | map _ ih =>
      refine Value.exact_map fun entry member => ?_
      obtain ⟨pair, among, same⟩ :=
        (Value.mem_foldl_insertIn member).resolve_right List.not_mem_nil
      exact same ▸ ih pair among

/-- **Values of floating point in a YAML text have the form in which they are made.** -/
theorem load_exact {text : String} {v : Value} (loaded : load text = .ok v) : v.Exact :=
  (load_made loaded).exact

end Yaml

end LogAlert
