/-
# LogAlert.Proofs.Value.Shown -- how shown values begin

The text of a value that is no text begins with a character that is not blank (`starts_shown`), and
not with the first letter of a name that is reserved in detections.  So such a value is never shown
as one of those names (`shown_ne_reserved`), and a value that counts as true is never blank
(`isBlankText_coerced`).
-/
import LogAlert.Condition.Evaluation
import LogAlert.Proofs.Json.RoundTrip

set_option autoImplicit false

namespace LogAlert.Value

/-- The text begins with a character that is not blank and none of those with which a reserved name
begins. -/
def Starts (s : String) : Prop :=
  ∃ c rest, s.toList = c :: rest ∧ Text.isBlank c = false ∧ c ≠ 'c' ∧ c ≠ 't'

theorem Starts.append {s : String} (starts : Starts s) (t : String) : Starts (s ++ t) := by
  obtain ⟨c, rest, same, other⟩ := starts
  exact ⟨c, rest ++ t.toList, by rw [String.toList_append, same, List.cons_append], other⟩

theorem Starts.not_blank {s : String} (starts : Starts s) : Text.isBlankText s = false := by
  obtain ⟨c, rest, same, visible, -⟩ := starts
  rw [Text.isBlankText, same, List.all_cons, visible, Bool.false_and]

theorem Starts.ne_reserved {s : String} (starts : Starts s) : s ∉ Condition.reservedNames := by
  obtain ⟨c, rest, same, -, notC, notT⟩ := starts
  intro reserved
  simp only [Condition.reservedNames, List.mem_cons, List.not_mem_nil, or_false] at reserved
  rcases reserved with rfl | rfl
  · exact notC (List.cons.inj same).1.symm
  · exact notT (List.cons.inj same).1.symm

theorem visible_of_isDigit {c : Char} (digit : c.isDigit = true) :
    Text.isBlank c = false ∧ c ≠ 'c' ∧ c ≠ 't' := by
  refine ⟨Text.isBlank_of_isDigit digit, ?_, ?_⟩
  · rintro rfl
    exact absurd digit (by decide)
  · rintro rfl
    exact absurd digit (by decide)

theorem starts_of_number {s : String}
    (starts : ∃ c rest, s.toList = c :: rest ∧ Json.StartsNumber c) : Starts s := by
  obtain ⟨c, rest, same, digit | rfl | rfl | rfl⟩ := starts
  · exact ⟨c, rest, same, visible_of_isDigit digit⟩
  all_goals exact ⟨_, rest, same, by decide, by decide, by decide⟩

theorem starts_float (x : Binary64) : Starts x.shown := by
  cases x with
  | nan => exact ⟨'n', _, rfl, by decide, by decide, by decide⟩
  | infinite negative =>
      cases negative with
      | false => exact ⟨'i', _, rfl, by decide, by decide, by decide⟩
      | true => exact ⟨'-', _, rfl, by decide, by decide, by decide⟩
  | finite negative m e => exact starts_of_number (Json.text_starts (.finite negative m e))

theorem starts_date (d : Time.Date) : Starts d.text := by
  have year : Starts (Time.padded 4 d.year.toNat) := by
    obtain ⟨c, rest, same⟩ := List.exists_cons_of_ne_nil (Time.padded_ne_nil 4 d.year.toNat)
    exact ⟨c, rest, same, visible_of_isDigit (Time.isDigit_padded _ _ c (same ▸ List.mem_cons_self))⟩
  exact (((year.append "-").append _).append "-").append _

/-- **Shown values that are no texts begin with a character that is not blank.** -/
theorem starts_shown {v : Value} (other : ∀ s, v ≠ .text s) : Starts v.shown := by
  have bracket : Starts "[" := ⟨'[', [], rfl, by decide, by decide, by decide⟩
  have parenthesis : Starts "(" := ⟨'(', [], rfl, by decide, by decide, by decide⟩
  have brace : Starts "\x7b" := ⟨'\x7b', [], rfl, by decide, by decide, by decide⟩
  cases v with
  | null => exact ⟨'N', _, rfl, by decide, by decide, by decide⟩
  | bool b =>
      cases b with
      | false => exact ⟨'F', _, rfl, by decide, by decide, by decide⟩
      | true => exact ⟨'T', _, rfl, by decide, by decide, by decide⟩
  | int n => exact starts_of_number (Json.intText_starts n)
  | float x => exact starts_float x
  | text s => exact absurd rfl (other s)
  | bytes octets => exact ⟨'b', _, String.toList_ofList, by decide, by decide, by decide⟩
  | date d => exact starts_date d
  | time t => exact ((starts_date t.date).append " ").append _
  | list items => exact (bracket.append _).append "]"
  | pair a b => exact (((parenthesis.append _).append ", ").append _).append ")"
  | set items =>
      change Starts (if items.isEmpty then "set()" else _)
      split
      · exact ⟨'s', _, rfl, by decide, by decide, by decide⟩
      · exact (brace.append _).append "\x7d"
  | map entries => exact (brace.append _).append "\x7d"

/-- A value that is no text is not shown as a name that is reserved in detections. -/
theorem shown_ne_reserved {v : Value} (other : ∀ s, v ≠ .text s) :
    v.shown ∉ Condition.reservedNames := (starts_shown other).ne_reserved

/-- A value that counts as true is not blank, unless it is a text. -/
theorem isBlankText_coerced {v : Value} (truthy : v.truthy = true) (other : ∀ s, v ≠ .text s) :
    Text.isBlankText v.coerced = false := by
  cases v with
  | null => cases truthy
  | bool b =>
      cases b with
      | false => cases truthy
      | true => decide
  | float x =>
      rw [coerced]
      split
      · split
        · exact (starts_of_number (Json.intText_starts _)).not_blank
        · exact (starts_float x).not_blank
      · exact (starts_float x).not_blank
  | text s => exact absurd rfl (other s)
  | _ => exact (starts_shown other).not_blank

end LogAlert.Value
