/-
# LogAlert.Proofs.Attack.Tags -- what a list of tags names

A list of tags names techniques and tactics, each of them once and at the place of the first tag that
names it.  Dropping repetitions is the union of lists: what more tags name comes behind what the first
ones name, without what is there already (`distinct_append`).  So it does not matter for the sets of
techniques and tactics how often a tag stands in the list, and where (`techniquesNamed_congr`,
`tacticsNamed_congr`).

Main statement: `named_tag_by_tag`.
-/
import LogAlert.Attack.Tags
import Mathlib.Data.List.Nodup
import Mathlib.Tactic.Common

set_option autoImplicit false

namespace LogAlert.Attack

variable {seen items : List String} {x : String}

/-! ## First occurrences -/

theorem mem_withoutRepeats : x ∈ withoutRepeats seen items ↔ x ∈ items ∧ x ∉ seen := by
  induction items generalizing seen with
  | nil => simp [withoutRepeats]
  | cons y items ih =>
      rw [withoutRepeats]
      by_cases old : y ∈ seen
      · rw [if_pos old, ih, List.mem_cons]
        refine and_congr_left fun new => (or_iff_right ?_).symm
        rintro rfl
        exact new old
      · rw [if_neg old, List.mem_cons, List.mem_cons, ih, List.mem_cons, not_or]
        by_cases same : x = y
        · subst same
          simp [old]
        · simp [same]

theorem nodup_withoutRepeats : (withoutRepeats seen items).Nodup := by
  induction items generalizing seen with
  | nil => exact List.nodup_nil
  | cons y items ih =>
      rw [withoutRepeats]
      split
      · exact ih
      · exact List.nodup_cons.2 ⟨fun again => (mem_withoutRepeats.1 again).2 List.mem_cons_self, ih⟩

/-- What is seen later can be left out later. -/
theorem filter_withoutRepeats {later : List String} (more : seen ⊆ later) :
    (withoutRepeats seen items).filter (· ∉ later) = withoutRepeats later items := by
  induction items generalizing seen later with
  | nil => rfl
  | cons y items ih =>
      rw [withoutRepeats, withoutRepeats]
      by_cases old : y ∈ seen
      · rw [if_pos old, if_pos (more old), ih more]
      rw [if_neg old]
      by_cases known : y ∈ later
      · rw [if_pos known, List.filter_cons_of_neg (by simpa using known)]
        exact ih (List.cons_subset.2 ⟨known, more⟩)
      · rw [if_neg known, List.filter_cons_of_pos (by simpa using known),
          ← ih (List.cons_subset_cons y more)]
        refine congrArg (y :: ·) (List.filter_congr fun z member => ?_)
        -- the item itself is not among those behind it
        have other : z ≠ y := fun same => (mem_withoutRepeats.1 member).2 (same ▸ List.mem_cons_self)
        simp [other]

theorem withoutRepeats_append (xs ys : List String) :
    withoutRepeats seen (xs ++ ys) =
      withoutRepeats seen xs ++ (withoutRepeats seen ys).filter (· ∉ xs) := by
  induction xs generalizing seen with
  | nil => simp [withoutRepeats]
  | cons x xs ih =>
      rw [List.cons_append, withoutRepeats, withoutRepeats]
      by_cases old : x ∈ seen
      · rw [if_pos old, if_pos old, ih]
        refine congrArg _ (List.filter_congr fun y member => ?_)
        have other : y ≠ x := fun same => (mem_withoutRepeats.1 member).2 (same ▸ old)
        simp [other]
      · have behind : withoutRepeats (x :: seen) ys =
            (withoutRepeats seen ys).filter (· ∉ x :: seen) :=
          (filter_withoutRepeats (List.subset_cons_self x seen)).symm
        rw [if_neg old, if_neg old, ih, behind, List.filter_filter, List.cons_append]
        refine congrArg (x :: withoutRepeats (x :: seen) xs ++ ·)
          (List.filter_congr fun y member => ?_)
        have new : y ∉ seen := (mem_withoutRepeats.1 member).2
        simp [new, Bool.and_comm]

theorem mem_distinct : x ∈ distinct items ↔ x ∈ items := by
  rw [distinct, mem_withoutRepeats]
  exact and_iff_left List.not_mem_nil

theorem nodup_distinct (items : List String) : (distinct items).Nodup := nodup_withoutRepeats

/-- **The union of lists.**  Behind the first items come those of the others that are new. -/
theorem distinct_append (xs ys : List String) :
    distinct (xs ++ ys) = distinct xs ++ (distinct ys).filter (· ∉ distinct xs) := by
  rw [distinct, withoutRepeats_append]
  refine congrArg (_ ++ ·) (List.filter_congr fun y _ => ?_)
  simp only [mem_distinct]

/-! ## Techniques and tactics -/

/-- The tactic that a tag names by the technique it names, if that one is known. -/
def tacticImplied? (tag : String) : Option String :=
  ((techniqueNamed? tag).bind technique?).map (·.tactic)

theorem mem_techniquesNamed {tags : List String} {id : String} :
    id ∈ techniquesNamed tags ↔ ∃ tag ∈ tags, techniqueNamed? tag = some id := by
  rw [techniquesNamed, mem_distinct, List.mem_filterMap]

theorem techniquesNamed_append (xs ys : List String) :
    techniquesNamed (xs ++ ys) =
      techniquesNamed xs ++ (techniquesNamed ys).filter (· ∉ techniquesNamed xs) := by
  rw [techniquesNamed, List.filterMap_append, distinct_append]
  rfl

/-- The tactics of the techniques that are named are those implied by the tags. -/
theorem mem_implied {tags : List String} {name : String} :
    name ∈ ((techniquesNamed tags).filterMap fun id => (technique? id).map (·.tactic)) ↔
      ∃ tag ∈ tags, tacticImplied? tag = some name := by
  simp only [List.mem_filterMap, mem_techniquesNamed, tacticImplied?, Option.map_eq_some_iff,
    Option.bind_eq_some_iff]
  constructor
  · rintro ⟨id, ⟨tag, member, names⟩, technique, known, same⟩
    exact ⟨tag, member, technique, ⟨id, names, known⟩, same⟩
  · rintro ⟨tag, member, technique, ⟨id, names, known⟩, same⟩
    exact ⟨id, ⟨tag, member, names⟩, technique, known, same⟩

/-- A tactic is named by a tag itself, or by the technique that a tag names. -/
theorem mem_tacticsNamed {tags : List String} {name : String} :
    name ∈ tacticsNamed tags ↔
      ∃ tag ∈ tags, tacticNamed? tag = some name ∨ tacticImplied? tag = some name := by
  rw [tacticsNamed, mem_distinct, List.mem_append, List.mem_filterMap, mem_implied]
  simp only [and_or_left, exists_or]

/-- The tactics named by themselves stand first. -/
theorem tacticsNamed_eq (tags : List String) :
    tacticsNamed tags = distinct (tags.filterMap tacticNamed?) ++
      (distinct ((techniquesNamed tags).filterMap fun id => (technique? id).map (·.tactic))).filter
        (· ∉ distinct (tags.filterMap tacticNamed?)) := distinct_append _ _

theorem techniquesNamed_congr {tags more : List String} (same : ∀ tag, tag ∈ more ↔ tag ∈ tags)
    (id : String) : id ∈ techniquesNamed more ↔ id ∈ techniquesNamed tags := by
  simp only [mem_techniquesNamed, same]

theorem tacticsNamed_congr {tags more : List String} (same : ∀ tag, tag ∈ more ↔ tag ∈ tags)
    (name : String) : name ∈ tacticsNamed more ↔ name ∈ tacticsNamed tags := by
  simp only [mem_tacticsNamed, same]

/-! ## The catalog -/

/-- The name stands in the table of tactics. -/
def IsTactic (name : String) : Prop := ∃ tactic ∈ tactics, tactic.name = name

instance (name : String) : Decidable (IsTactic name) :=
  inferInstanceAs (Decidable (∃ tactic ∈ tactics, tactic.name = name))

/-- The tactic of each technique of the catalog is one of the tactics. -/
theorem isTactic_of_mem_techniques : ∀ technique ∈ techniques, IsTactic technique.tactic := by
  decide +kernel

theorem isTactic_of_tacticNamed {tag name : String} (names : tacticNamed? tag = some name) :
    IsTactic name := by
  obtain ⟨tactic, found, same⟩ := Option.map_eq_some_iff.1 names
  exact ⟨tactic, List.mem_of_find?_eq_some found, same⟩

theorem isTactic_of_tacticImplied {tag name : String} (implies : tacticImplied? tag = some name) :
    IsTactic name := by
  obtain ⟨technique, known, rfl⟩ := Option.map_eq_some_iff.1 implies
  obtain ⟨id, -, found⟩ := Option.bind_eq_some_iff.1 known
  exact isTactic_of_mem_techniques technique (List.mem_of_find?_eq_some found)

/-- **What tags name, tag by tag.**  More tags add the techniques that are new, in their order.
Techniques and tactics are named once each; the tactics are tactics of the catalog, and those that a
tag names by itself stand before those that are only implied.  A tactic is named by a list of tags
exactly if one of the tags names it alone; so neither the order of the tags nor repetitions change
what is named. -/
theorem named_tag_by_tag (tags more : List String) :
    techniquesNamed (tags ++ more) =
        techniquesNamed tags ++ (techniquesNamed more).filter (· ∉ techniquesNamed tags) ∧
      (techniquesNamed tags).Nodup ∧ (tacticsNamed tags).Nodup ∧
      (∀ name ∈ tacticsNamed tags, IsTactic name) ∧
      (∃ explicit implied, tacticsNamed tags = explicit ++ implied ∧
        (∀ name, name ∈ explicit ↔ ∃ tag ∈ tags, tacticNamed? tag = some name) ∧
        ∀ name ∈ implied, ∀ tag ∈ tags, tacticNamed? tag ≠ some name) ∧
      (∀ name, name ∈ tacticsNamed tags ↔ ∃ tag ∈ tags, name ∈ tacticsNamed [tag]) ∧
      ∀ others : List String, (∀ tag, tag ∈ others ↔ tag ∈ tags) →
        (∀ id, id ∈ techniquesNamed others ↔ id ∈ techniquesNamed tags) ∧
          ∀ name, name ∈ tacticsNamed others ↔ name ∈ tacticsNamed tags := by
  have explicit {name : String} : name ∈ distinct (tags.filterMap tacticNamed?) ↔
      ∃ tag ∈ tags, tacticNamed? tag = some name := by
    rw [mem_distinct, List.mem_filterMap]
  refine ⟨techniquesNamed_append tags more, nodup_distinct _, nodup_distinct _, ?_, ?_, ?_, ?_⟩
  · intro name named
    obtain ⟨tag, -, names | implies⟩ := mem_tacticsNamed.1 named
    · exact isTactic_of_tacticNamed names
    · exact isTactic_of_tacticImplied implies
  · refine ⟨_, _, tacticsNamed_eq tags, fun name => explicit, ?_⟩
    intro name behind tag member names
    have new : name ∉ distinct (tags.filterMap tacticNamed?) := by
      simpa using (List.mem_filter.1 behind).2
    exact new (explicit.2 ⟨tag, member, names⟩)
  · intro name
    simp only [mem_tacticsNamed, List.mem_singleton, exists_eq_left]
  · intro others same
    exact ⟨techniquesNamed_congr same, tacticsNamed_congr same⟩

end LogAlert.Attack
