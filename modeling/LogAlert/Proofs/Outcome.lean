/-
# LogAlert.Proofs.Outcome -- taking results apart

Most operations of this library may fail. These lemmas say what is known of the steps of an
operation whose result is known, so that no proof opens the sequencing of steps itself.
-/
import Mathlib.Data.List.Forall2
import Mathlib.Tactic.Common

set_option autoImplicit false

namespace LogAlert

variable {ε ε' α β : Type}

/-- An operation in two steps succeeds if both steps do. -/
theorem bind_eq_ok {first : Except ε α} {second : α → Except ε β} {b : β} :
    (first >>= second) = .ok b ↔ ∃ a, first = .ok a ∧ second a = .ok b := by
  constructor
  · intro succeeded
    cases first with
    | error e => nomatch succeeded
    | ok a => exact ⟨a, rfl, succeeded⟩
  · rintro ⟨a, rfl, succeeded⟩
    exact succeeded

/-- It fails if one of the steps does. -/
theorem bind_eq_error {first : Except ε α} {second : α → Except ε β} {e : ε} :
    (first >>= second) = .error e ↔
      first = .error e ∨ ∃ a, first = .ok a ∧ second a = .error e := by
  constructor
  · intro failed
    cases first with
    | error _ => exact .inl (congrArg Except.error (Except.error.inj failed))
    | ok a => exact .inr ⟨a, rfl, failed⟩
  · rintro (rfl | ⟨a, rfl, failed⟩)
    · rfl
    · exact failed

/-- If it does not depend on the first result whether the second step succeeds, then the steps
succeed one by one. -/
theorem bind_isOk_iff {first : Except ε α} {second : α → Except ε β} {p : Prop}
    (behind : ∀ a, first = .ok a → ((∃ b, second a = .ok b) ↔ p)) :
    (∃ b, (first >>= second) = .ok b) ↔ (∃ a, first = .ok a) ∧ p := by
  constructor
  · rintro ⟨b, succeeded⟩
    obtain ⟨a, one, succeeded⟩ := bind_eq_ok.1 succeeded
    exact ⟨⟨a, one⟩, (behind a one).1 ⟨b, succeeded⟩⟩
  · rintro ⟨⟨a, one⟩, holds⟩
    obtain ⟨b, two⟩ := (behind a one).2 holds
    exact ⟨b, bind_eq_ok.2 ⟨a, one, two⟩⟩

/-- A last step that cannot fail. -/
theorem bind_pure_isOk_iff {first : Except ε α} {f : α → β} :
    (∃ b, (first >>= fun a => pure (f a)) = .ok b) ↔ ∃ a, first = .ok a :=
  (bind_isOk_iff fun _ _ => iff_of_true ⟨_, rfl⟩ trivial).trans (and_iff_left trivial)

@[simp] theorem ok_bind (a : α) (second : α → Except ε β) : (.ok a >>= second) = second a := rfl

@[simp] theorem error_bind (e : ε) (second : α → Except ε β) :
    (.error e >>= second) = .error e := rfl

/-- The result of two steps, without the error. -/
theorem toOption_bind (first : Except ε α) (second : α → Except ε β) :
    (first >>= second).toOption = first.toOption.bind fun a => (second a).toOption := by
  cases first <;> rfl

theorem toOption_eq_some {first : Except ε α} {a : α} :
    first.toOption = some a ↔ first = .ok a := by
  cases first <;> simp [Except.toOption]

theorem mapError_eq_ok {first : Except ε α} {f : ε → ε'} {a : α} :
    first.mapError f = .ok a ↔ first = .ok a := by
  cases first <;> simp [Except.mapError]

/-- What is obtained for a list is obtained member by member. -/
theorem mapM_eq_ok {f : α → Except ε β} {xs : List α} {ys : List β} :
    xs.mapM f = .ok ys ↔ List.Forall₂ (fun x y => f x = .ok y) xs ys := by
  induction xs generalizing ys with
  | nil =>
      rw [List.mapM_nil, List.forall₂_nil_left_iff]
      exact ⟨fun mapped => (Except.ok.inj mapped).symm, fun none => none ▸ rfl⟩
  | cons x xs ih =>
      rw [List.mapM_cons, bind_eq_ok, List.forall₂_cons_left_iff]
      constructor
      · rintro ⟨y, one, mapped⟩
        obtain ⟨ys', others, mapped⟩ := bind_eq_ok.1 mapped
        exact ⟨y, ys', one, ih.1 others, (Except.ok.inj mapped).symm⟩
      · rintro ⟨y, ys', one, others, rfl⟩
        exact ⟨y, one, bind_eq_ok.2 ⟨ys', ih.2 others, rfl⟩⟩

theorem exists_of_forall₂ {R : α → β → Prop} {xs : List α} {ys : List β}
    (each : List.Forall₂ R xs ys) {y : β} (member : y ∈ ys) : ∃ x ∈ xs, R x y := by
  induction each with
  | nil => cases member
  | cons one others ih =>
      rcases List.mem_cons.1 member with rfl | behind
      · exact ⟨_, List.mem_cons_self, one⟩
      · obtain ⟨x, inList, related⟩ := ih behind
        exact ⟨x, List.mem_cons_of_mem _ inList, related⟩

/-- What is obtained for a list is obtained for its members. -/
theorem mem_of_mapM_eq_ok {f : α → Except ε β} {xs : List α} {ys : List β}
    (mapped : xs.mapM f = .ok ys) {y : β} (member : y ∈ ys) : ∃ x ∈ xs, f x = .ok y :=
  exists_of_forall₂ (mapM_eq_ok.1 mapped) member

/-- What was made of the members gives the members back. -/
theorem mapM_map_eq_ok {f : β → Except ε α} {g : α → β} {xs : List α}
    (each : ∀ x ∈ xs, f (g x) = .ok x) : (xs.map g).mapM f = .ok xs := by
  rw [mapM_eq_ok, List.forall₂_map_left_iff, List.forall₂_same]
  exact each

/-- If nothing fails for a member, nothing fails for the list. -/
theorem mapM_total {f : α → Except ε β} {xs : List α} (each : ∀ x ∈ xs, ∃ y, f x = .ok y) :
    ∃ ys, xs.mapM f = .ok ys := by
  induction xs with
  | nil => exact ⟨[], rfl⟩
  | cons x xs ih =>
      obtain ⟨y, one⟩ := each x List.mem_cons_self
      obtain ⟨ys, others⟩ := ih fun z member => each z (List.mem_cons_of_mem _ member)
      exact ⟨y :: ys, mapM_eq_ok.2 (.cons one (mapM_eq_ok.1 others))⟩

theorem mapM_isOk_iff {f : α → Except ε β} {xs : List α} :
    (∃ ys, xs.mapM f = .ok ys) ↔ ∀ x ∈ xs, ∃ y, f x = .ok y := by
  refine ⟨fun ⟨ys, mapped⟩ x member => ?_, mapM_total⟩
  obtain ⟨y, -, one⟩ := exists_of_forall₂ (mapM_eq_ok.1 mapped).flip member
  exact ⟨y, one⟩

theorem mapM_concat {f : α → Except ε β} {x : α} {y : β} (one : f x = .ok y) (xs : List α) :
    (xs ++ [x]).mapM f = (xs.mapM f).map (· ++ [y]) := by
  rw [List.mapM_append, List.mapM_cons, one]
  cases xs.mapM f <;> rfl

/-- The lists that are obtained have no members exactly if each of them is empty. -/
theorem mapM_flatten_eq_nil (f : α → Except ε (List β)) (xs : List α) :
    (∃ yss, xs.mapM f = .ok yss ∧ yss.flatten = []) ↔ ∀ x ∈ xs, f x = .ok [] := by
  induction xs with
  | nil => exact ⟨fun _ => nofun, fun _ => ⟨[], rfl, rfl⟩⟩
  | cons x xs ih =>
      rw [List.forall_mem_cons, ← ih]
      constructor
      · rintro ⟨yss, mapped, none⟩
        obtain ⟨ys, rest, one, others, rfl⟩ := List.forall₂_cons_left_iff.1 (mapM_eq_ok.1 mapped)
        rw [List.flatten_cons, List.append_eq_nil_iff] at none
        exact ⟨none.1 ▸ one, rest, mapM_eq_ok.2 others, none.2⟩
      · rintro ⟨one, rest, others, none⟩
        exact ⟨[] :: rest, mapM_eq_ok.2 (.cons one (mapM_eq_ok.1 others)), none⟩

end LogAlert
