/-
# LogAlert.Proofs.Pattern.Literal -- patterns without wildcards, by equality and as regular expressions

A pattern without wildcards stands for one text, itself (`globs_literal_iff`).  There are two ways to
ask whether it matches: values are compared with it (`matchesValue`), and the regular expression that
is written for it can be run on them (`Regex.Matches`).  The regular expression ends in `$`, which
holds before a line break at the end as well as at the end.

* `matches_literal_iff`: the regular expression matches the pattern, and the pattern with one line
  break behind it.
* `equality_agrees_iff`: so the two ways give one answer for every value but the latter.
-/
import LogAlert.Proofs.Pattern.Glob
import Mathlib.Data.List.Forall2

set_option autoImplicit false

namespace LogAlert.Pattern

/-- The regular expression can be read, and matches the text from its start on. -/
def Regex.Matches (caseSensitive : Bool) (source text : String) : Prop :=
  ∃ items, Regex.read? source.toList = some items ∧
    Regex.Accepts (Alike caseSensitive) true items text.toList

section

variable {pattern text : String}

/-- Without wildcards, each character stands for one character. -/
theorem globs_literal_iff {alike : Char → Char → Prop} {pattern text : List Char}
    (star : '*' ∉ pattern) (mark : '?' ∉ pattern) :
    Globs alike pattern text ↔ List.Forall₂ alike pattern text := by
  induction pattern generalizing text with
  | nil => rw [globs_nil_iff, List.forall₂_nil_left_iff]
  | cons p pattern ih =>
      rw [List.mem_cons, not_or] at star mark
      rw [globs_char_iff (Ne.symm star.1) (Ne.symm mark.1), List.forall₂_cons_left_iff]
      constructor
      · rintro ⟨c, rest, rfl, alike, globs⟩
        exact ⟨c, rest, alike, (ih star.2 mark.2).1 globs, rfl⟩
      · rintro ⟨c, rest, alike, each, rfl⟩
        exact ⟨c, rest, rfl, alike, (ih star.2 mark.2).2 each⟩

theorem matchesValue_literal (star : '*' ∉ pattern.toList) (mark : '?' ∉ pattern.toList) :
    matchesValue true pattern text = true ↔ text = pattern := by
  have plain : ¬ hasWildcards pattern = true := by
    rw [hasWildcards_iff]
    exact not_or.2 ⟨star, mark⟩
  rw [matchesValue, if_neg plain, if_pos rfl]
  exact beq_iff_eq

/-- **The regular expression for a pattern without wildcards matches two texts**: the pattern, and
the pattern with one line break behind it. -/
theorem matches_literal_iff (star : '*' ∉ pattern.toList) (mark : '?' ∉ pattern.toList) :
    Regex.Matches true (regexText pattern) text ↔ text = pattern ∨ text = pattern ++ "\n" := by
  have same (chars : List Char) : Globs (Alike true) pattern.toList chars ↔ chars = pattern.toList := by
    rw [globs_literal_iff star mark, show Alike true = Eq from rfl, List.forall₂_eq_eq_eq, eq_comm]
  rw [Regex.Matches, ← matchesText_iff_accepts, matchesText, pieces,
    matchesPieces_iff fun _ => rfl, leads_ofValue_iff]
  simp only [same, exists_eq_right]
  rw [← String.toList_inj, ← String.toList_inj, String.toList_append]
  rfl

end

/-- **Equality and the regular expression agree on every value** but one, the pattern with one line
break behind it, which is not equal to the pattern and is matched by the regular expression. -/
theorem equality_agrees_iff (pattern text : String) (star : '*' ∉ pattern.toList)
    (mark : '?' ∉ pattern.toList) :
    (matchesValue true pattern text = true ↔ Regex.Matches true (regexText pattern) text) ↔
      text ≠ pattern ++ "\n" := by
  rw [matchesValue_literal star mark, matches_literal_iff star mark]
  constructor
  · intro agree broken
    have equal : text = pattern := agree.2 (.inr broken)
    have lengths : pattern.length = pattern.length + 1 := by
      simpa using congrArg String.length (equal.symm.trans broken)
    omega
  · intro unbroken
    exact ⟨.inl, fun either => either.resolve_right unbroken⟩

/-- A pattern of operators of regular expressions, and a value with a line break within. -/
theorem equality_agrees_iff_operators :
    ('*' ∉ "a.(b|c)$".toList ∧ '?' ∉ "a.(b|c)$".toList) ∧
      (matchesValue true "a.(b|c)$" "a.\n" = true ↔
        Regex.Matches true (regexText "a.(b|c)$") "a.\n") := by
  have star : '*' ∉ "a.(b|c)$".toList := by decide
  have mark : '?' ∉ "a.(b|c)$".toList := by decide
  exact ⟨⟨star, mark⟩, (equality_agrees_iff _ _ star mark).2 (by decide)⟩

/-- The value `abc` with a line break behind it: not equal to the pattern `abc`, but matched by the
regular expression for it. -/
theorem regex_reads_past_line_break :
    ('*' ∉ "abc".toList ∧ '?' ∉ "abc".toList) ∧ matchesValue true "abc" "abc\n" = false ∧
      Regex.Matches true (regexText "abc") "abc\n" := by
  have star : '*' ∉ "abc".toList := by decide
  have mark : '?' ∉ "abc".toList := by decide
  exact ⟨⟨star, mark⟩, by decide, (matches_literal_iff star mark).2 (.inr rfl)⟩

end LogAlert.Pattern
