/-
# LogAlert.Proofs.Pattern.Glob -- what wildcard patterns match

`Globs` says which texts a pattern stands for, character by character and without any search: `*` for
any characters or none, `?` for any one character, and every other character for itself.  The matcher
tries the ways in which a star can be filled one after the other, and stops at a rest of the text that
may be left over.

* `matchesPieces_iff`: the matcher finds a way exactly if there is one.
* `matchesValue_iff_globs`: a pattern with wildcards matches a value exactly if it stands for the
  whole of it, or for all of it but a line break at its end.
* `matchesText_iff_accepts`: the regular expression that is written for a pattern (`regexText`), read
  by the rules for regular expressions, accepts the same texts.  All characters of the pattern that
  mean something to a regular expression are escaped there.
-/
import LogAlert.Pattern
import Mathlib.Tactic.Common

set_option autoImplicit false

namespace LogAlert.Pattern

/-! ## Patterns and the texts they stand for -/

/-- The pattern stands for the text: a star for any characters or none, a question mark for any one
character, and every other character for one that is alike. -/
inductive Globs (alike : Char → Char → Prop) : List Char → List Char → Prop where
  | nil : Globs alike [] []
  | star {pattern text : List Char} (front : List Char) :
      Globs alike pattern text → Globs alike ('*' :: pattern) (front ++ text)
  | mark {pattern text : List Char} (c : Char) :
      Globs alike pattern text → Globs alike ('?' :: pattern) (c :: text)
  | char {pattern text : List Char} {p c : Char} :
      p ≠ '*' → p ≠ '?' → alike p c → Globs alike pattern text →
      Globs alike (p :: pattern) (c :: text)

/-- A character of a pattern for values, and one that it stands for: the same one, or one that
differs in nothing but its case. -/
def Alike (caseSensitive : Bool) (p c : Char) : Prop :=
  if caseSensitive then p = c else Text.foldKey p = Text.foldKey c

section

variable {alike : Char → Char → Prop} {p : Char} {pattern text : List Char}

theorem globs_nil_iff : Globs alike [] text ↔ text = [] := by
  constructor
  · rintro ⟨⟩
    rfl
  · rintro rfl
    exact .nil

theorem globs_star_iff :
    Globs alike ('*' :: pattern) text ↔ ∃ front rest, text = front ++ rest ∧ Globs alike pattern rest := by
  constructor
  · intro globs
    cases globs with
    | @star _ rest front globs => exact ⟨front, rest, rfl, globs⟩
    | char star => exact absurd rfl star
  · rintro ⟨front, rest, rfl, globs⟩
    exact .star front globs

theorem globs_mark_iff :
    Globs alike ('?' :: pattern) text ↔ ∃ c rest, text = c :: rest ∧ Globs alike pattern rest := by
  constructor
  · intro globs
    cases globs with
    | @mark _ rest c globs => exact ⟨c, rest, rfl, globs⟩
    | char _ mark => exact absurd rfl mark
  · rintro ⟨c, rest, rfl, globs⟩
    exact .mark c globs

theorem globs_char_iff (star : p ≠ '*') (mark : p ≠ '?') :
    Globs alike (p :: pattern) text ↔
      ∃ c rest, text = c :: rest ∧ alike p c ∧ Globs alike pattern rest := by
  constructor
  · intro globs
    cases globs with
    | star => exact absurd rfl star
    | mark => exact absurd rfl mark
    | @char _ rest _ c _ _ same globs => exact ⟨c, rest, rfl, same, globs⟩
  · rintro ⟨c, rest, rfl, same, globs⟩
    exact .char star mark same globs

end

/-! ## The matcher -/

/-- What a run of wildcards can leave of a text. -/
theorem mem_remainders {wild : Char → Bool} {chars rest : List Char} :
    rest ∈ remainders wild chars ↔ ∃ front, chars = front ++ rest ∧ ∀ c ∈ front, wild c = true := by
  induction chars with
  | nil =>
      rw [remainders, List.mem_singleton]
      constructor
      · rintro rfl
        exact ⟨[], rfl, nofun⟩
      · rintro ⟨front, same, -⟩
        exact (List.append_eq_nil_iff.1 same.symm).2
  | cons c chars ih =>
      rw [remainders, List.mem_cons]
      constructor
      · rintro (rfl | more)
        · exact ⟨[], rfl, nofun⟩
        · split at more
          · rename_i wild
            obtain ⟨front, rfl, all⟩ := ih.1 more
            exact ⟨c :: front, rfl, List.forall_mem_cons.2 ⟨wild, all⟩⟩
          · cases more
      · rintro ⟨front, same, all⟩
        cases front with
        | nil => exact .inl same.symm
        | cons d front =>
            rw [List.cons_append, List.cons.injEq] at same
            obtain ⟨rfl, same⟩ := same
            rw [if_pos (all c List.mem_cons_self)]
            exact .inr (ih.2 ⟨front, same, fun d member => all d (List.mem_cons_of_mem _ member)⟩)

theorem piece_char {p : Char} (star : p ≠ '*') (mark : p ≠ '?') : piece p = .char p := by
  rw [piece, if_neg star, if_neg mark]

/-- The text begins with what the pattern stands for, and what is left over may be left over. -/
def Leads (reading : Reading) (pattern text : List Char) : Prop :=
  ∃ whole rest, text = whole ++ rest ∧ reading.rest rest = true ∧
    Globs (fun p c => reading.key p = reading.key c) pattern whole

section

variable {reading : Reading} {p c : Char} {pattern text : List Char}

theorem leads_nil_iff : Leads reading [] text ↔ reading.rest text = true := by
  constructor
  · rintro ⟨whole, rest, rfl, permitted, globs⟩
    rw [globs_nil_iff.1 globs]
    exact permitted
  · intro permitted
    exact ⟨[], text, rfl, permitted, .nil⟩

theorem leads_star_iff :
    Leads reading ('*' :: pattern) text ↔ ∃ front rest, text = front ++ rest ∧ Leads reading pattern rest := by
  constructor
  · rintro ⟨_, rest, rfl, permitted, globs⟩
    obtain ⟨front, whole, rfl, inner⟩ := globs_star_iff.1 globs
    exact ⟨front, whole ++ rest, List.append_assoc .., whole, rest, rfl, permitted, inner⟩
  · rintro ⟨front, _, rfl, whole, rest, rfl, permitted, globs⟩
    exact ⟨front ++ whole, rest, (List.append_assoc ..).symm, permitted, .star front globs⟩

theorem not_leads_nil (star : p ≠ '*') : ¬ Leads reading (p :: pattern) [] := by
  rintro ⟨whole, rest, same, -, globs⟩
  rw [(List.append_eq_nil_iff.1 same.symm).1] at globs
  generalize empty : [] = chars at globs
  cases globs with
  | star => exact absurd rfl star
  | mark => cases empty
  | char => cases empty

theorem leads_mark_iff : Leads reading ('?' :: pattern) (c :: text) ↔ Leads reading pattern text := by
  constructor
  · rintro ⟨whole, rest, same, permitted, globs⟩
    obtain ⟨d, whole, rfl, inner⟩ := globs_mark_iff.1 globs
    rw [List.cons_append, List.cons.injEq] at same
    exact ⟨whole, rest, same.2, permitted, inner⟩
  · rintro ⟨whole, rest, rfl, permitted, globs⟩
    exact ⟨c :: whole, rest, rfl, permitted, .mark c globs⟩

theorem leads_char_iff (star : p ≠ '*') (mark : p ≠ '?') :
    Leads reading (p :: pattern) (c :: text) ↔
      reading.key p = reading.key c ∧ Leads reading pattern text := by
  constructor
  · rintro ⟨whole, rest, same, permitted, globs⟩
    obtain ⟨d, whole, rfl, alike, inner⟩ := (globs_char_iff star mark).1 globs
    rw [List.cons_append, List.cons.injEq] at same
    obtain ⟨rfl, same⟩ := same
    exact ⟨alike, whole, rest, same, permitted, inner⟩
  · rintro ⟨alike, whole, rest, rfl, permitted, globs⟩
    exact ⟨c :: whole, rest, rfl, permitted, .char star mark alike globs⟩

/-- **The matcher finds a way exactly if there is one**, where a wildcard may stand for any
character. -/
theorem matchesPieces_iff (free : ∀ c, reading.wild c = true) (pattern text : List Char) :
    matchesPieces reading (pattern.map piece) text = true ↔ Leads reading pattern text := by
  induction pattern generalizing text with
  | nil => exact leads_nil_iff.symm
  | cons p pattern ih =>
      rw [List.map_cons]
      by_cases star : p = '*'
      · subst star
        simp only [show piece '*' = .run from rfl, matchesPieces, List.any_eq_true, mem_remainders,
          ih, leads_star_iff]
        constructor
        · rintro ⟨rest, ⟨front, same, -⟩, leads⟩
          exact ⟨front, rest, same, leads⟩
        · rintro ⟨front, rest, same, leads⟩
          exact ⟨rest, ⟨front, same, fun c _ => free c⟩, leads⟩
      by_cases mark : p = '?'
      · subst mark
        rw [show piece '?' = .one from rfl]
        cases text with
        | nil => simpa [matchesPieces] using not_leads_nil star
        | cons c text => simp only [matchesPieces, free c, Bool.true_and, ih, leads_mark_iff]
      rw [piece_char star mark]
      cases text with
      | nil => simpa [matchesPieces] using not_leads_nil star
      | cons c text =>
          simp only [matchesPieces, Bool.and_eq_true, beq_iff_eq, ih, leads_char_iff star mark]

end

/-! ## Values -/

theorem alike_ofValue (caseSensitive : Bool) :
    (fun p c => (ofValue caseSensitive).key p = (ofValue caseSensitive).key c) =
      Alike caseSensitive := by
  cases caseSensitive <;> rfl

theorem atLineEnd_iff {rest : List Char} : atLineEnd rest = true ↔ rest = [] ∨ rest = ['\n'] := by
  simp [atLineEnd]

/-- What may be left over of a value is nothing, or a line break. -/
theorem leads_ofValue_iff {caseSensitive : Bool} {pattern text : List Char} :
    Leads (ofValue caseSensitive) pattern text ↔
      Globs (Alike caseSensitive) pattern text ∨
        ∃ line, text = line ++ ['\n'] ∧ Globs (Alike caseSensitive) pattern line := by
  rw [Leads, alike_ofValue]
  constructor
  · rintro ⟨whole, rest, rfl, permitted, globs⟩
    rcases atLineEnd_iff.1 permitted with rfl | rfl
    · rw [List.append_nil]
      exact .inl globs
    · exact .inr ⟨whole, rfl, globs⟩
  · rintro (globs | ⟨line, rfl, globs⟩)
    · exact ⟨text, [], (List.append_nil text).symm, rfl, globs⟩
    · exact ⟨line, ['\n'], rfl, rfl, globs⟩

theorem hasWildcards_iff {pattern : String} :
    hasWildcards pattern = true ↔ '*' ∈ pattern.toList ∨ '?' ∈ pattern.toList := by
  simp only [hasWildcards, List.any_eq_true, Bool.or_eq_true, decide_eq_true_eq]
  constructor
  · rintro ⟨c, member, rfl | rfl⟩
    · exact .inl member
    · exact .inr member
  · rintro (member | member)
    · exact ⟨'*', member, .inl rfl⟩
    · exact ⟨'?', member, .inr rfl⟩

/-- **A pattern with wildcards matches exactly the values that it stands for**, and these with one
line break behind them. -/
theorem matchesValue_iff_globs (caseSensitive : Bool) (pattern text : String)
    (wildcard : '*' ∈ pattern.toList ∨ '?' ∈ pattern.toList) :
    matchesValue caseSensitive pattern text = true ↔
      Globs (Alike caseSensitive) pattern.toList text.toList ∨
        ∃ line, text = line ++ "\n" ∧ Globs (Alike caseSensitive) pattern.toList line.toList := by
  have matched : matchesValue caseSensitive pattern text =
      matchesPieces (ofValue caseSensitive) (pattern.toList.map piece) text.toList :=
    if_pos (hasWildcards_iff.2 wildcard)
  have lines : (∃ line, text.toList = line ++ ['\n'] ∧
        Globs (Alike caseSensitive) pattern.toList line) ↔
      ∃ line, text = line ++ "\n" ∧ Globs (Alike caseSensitive) pattern.toList line.toList := by
    constructor
    · rintro ⟨line, same, globs⟩
      refine ⟨String.ofList line, ?_, by rwa [String.toList_ofList]⟩
      apply String.toList_injective
      rw [same, String.toList_append, String.toList_ofList]
      rfl
    · rintro ⟨line, rfl, globs⟩
      exact ⟨line.toList, String.toList_append .., globs⟩
  rw [matched, matchesPieces_iff (fun _ => rfl), leads_ofValue_iff, lines]

/-- Of `a.*?` and a text of two lines with a line break at its end: the star stands for the first line
break, and the last one is left over. -/
theorem matchesValue_iff_globs_two_lines :
    ('*' ∈ "a.*?".toList ∨ '?' ∈ "a.*?".toList) ∧ matchesValue false "a.*?" "A.\nb\n" = true := by
  have wildcard : '*' ∈ "a.*?".toList ∨ '?' ∈ "a.*?".toList := by decide
  have alike : Alike false 'a' 'A' := by unfold Alike; decide
  have line : Globs (Alike false) "a.*?".toList "A.\nb".toList :=
    .char (by decide) (by decide) alike
      (.char (by decide) (by decide) rfl (.star ['\n'] (.mark 'b' .nil)))
  exact ⟨wildcard, (matchesValue_iff_globs false "a.*?" "A.\nb\n" wildcard).2
    (.inr ⟨"A.\nb", by decide, line⟩)⟩

/-! ## The regular expression for a pattern -/

/-- One element of a regular expression of the kind that is written for patterns. -/
inductive Regex where
  /-- The start of the text. -/
  | start
  /-- The end of the text, or the place before a line break at its end. -/
  | stop
  /-- Any one character; line breaks are no exception. -/
  | any
  /-- Any characters, or none. -/
  | anyRun
  /-- This character. -/
  | only (c : Char)
deriving DecidableEq, Repr

namespace Regex

/-- The characters that are operators of regular expressions. -/
def operators : List Char := "\\^$.|?*+()[]\x7b\x7d".toList

/-- Read a regular expression, unless it has other operators than those above.  A backslash takes
the meaning from a character that is neither a letter nor a digit. -/
def read? : List Char → Option (List Regex)
  | [] => some []
  | '^' :: rest => (read? rest).map (.start :: ·)
  | '$' :: rest => (read? rest).map (.stop :: ·)
  | '.' :: '*' :: rest => (read? rest).map (.anyRun :: ·)
  | '.' :: rest => (read? rest).map (.any :: ·)
  | '\\' :: c :: rest => if c.isAlphanum then none else (read? rest).map (.only c :: ·)
  | c :: rest => if c ∈ operators then none else (read? rest).map (.only c :: ·)

/-- The elements match the text from its start on, or from a place behind its start. -/
inductive Accepts (alike : Char → Char → Prop) : Bool → List Regex → List Char → Prop where
  | nil {atStart : Bool} (text : List Char) : Accepts alike atStart [] text
  | start {items : List Regex} {text : List Char} :
      Accepts alike true items text → Accepts alike true (.start :: items) text
  | stop {atStart : Bool} {items : List Regex} {text : List Char} :
      text = [] ∨ text = ['\n'] → Accepts alike atStart items text →
      Accepts alike atStart (.stop :: items) text
  | any {atStart : Bool} {items : List Regex} {text : List Char} (c : Char) :
      Accepts alike false items text → Accepts alike atStart (.any :: items) (c :: text)
  | anyRun {atStart : Bool} {items : List Regex} {text : List Char} (front : List Char) :
      Accepts alike (atStart && front.isEmpty) items text →
      Accepts alike atStart (.anyRun :: items) (front ++ text)
  | only {atStart : Bool} {items : List Regex} {text : List Char} {p c : Char} :
      alike p c → Accepts alike false items text →
      Accepts alike atStart (.only p :: items) (c :: text)

/-- The element for a character of a pattern. -/
def ofChar (c : Char) : Regex :=
  match piece c with
  | .run => .anyRun
  | .one => .any
  | .char c => .only c

/-! ### What is read -/

theorem operators_special : operators ⊆ regexSpecials := by decide

theorem special_plain {c : Char} (special : c ∈ regexSpecials) : c.isAlphanum = false := by
  have none : regexSpecials.any Char.isAlphanum = false := by decide
  exact Bool.eq_false_iff.2 (List.any_eq_false.1 none c special)

/-- What is written for a character does not begin with a star. -/
theorem regexPiece_head (c : Char) : ∃ first rest, regexPiece c = first :: rest ∧ first ≠ '*' := by
  unfold regexPiece
  split
  · exact ⟨'.', ['*'], rfl, by decide⟩
  · exact ⟨'.', [], rfl, by decide⟩
  · rename_i d _
    split
    · exact ⟨'\\', [d], rfl, by decide⟩
    · rename_i plain
      refine ⟨d, [], rfl, ?_⟩
      rintro rfl
      exact plain (by decide)

theorem read?_one {rest : List Char} (head : ∀ more, rest ≠ '*' :: more) :
    read? ('.' :: rest) = (read? rest).map (.any :: ·) := by
  cases rest with
  | nil => rfl
  | cons c rest =>
      have noStar : c ≠ '*' := fun same => head rest (by rw [same])
      rw [read?]
      exact fun more same => noStar (List.cons.inj same).1

theorem read?_escaped {c : Char} (plain : c.isAlphanum = false) (rest : List Char) :
    read? ('\\' :: c :: rest) = (read? rest).map (.only c :: ·) := by
  simp [read?, plain]

theorem read?_plain {c : Char} (plain : c ∉ operators) (rest : List Char) :
    read? (c :: rest) = (read? rest).map (.only c :: ·) := by
  have ne {d : Char} (operator : d ∈ operators) : c ≠ d := fun same => plain (same ▸ operator)
  rw [read?, if_neg plain]
  · exact ne (by decide)
  · exact ne (by decide)
  · exact fun _ point _ => ne (by decide) point
  · exact ne (by decide)
  · exact fun _ _ backslash _ => ne (by decide) backslash

theorem read?_regexPiece (c : Char) {rest : List Char} (head : ∀ more, rest ≠ '*' :: more) :
    read? (regexPiece c ++ rest) = (read? rest).map (ofChar c :: ·) := by
  cases kind : piece c with
  | run =>
      simp only [regexPiece, ofChar, kind]
      rfl
  | one =>
      simp only [regexPiece, ofChar, kind]
      exact read?_one head
  | char d =>
      simp only [regexPiece, ofChar, kind]
      by_cases special : d ∈ regexSpecials
      · rw [if_pos special]
        exact read?_escaped (special_plain special) rest
      · rw [if_neg special]
        exact read?_plain (fun operator => special (operators_special operator)) rest

/-- **A pattern is read back from the regular expression that is written for it.** -/
theorem read?_regexText (pattern : String) :
    read? (regexText pattern).toList = some (.start :: pattern.toList.map ofChar ++ [.stop]) := by
  have body (chars : List Char) :
      read? (chars.flatMap regexPiece ++ ['$']) = some (chars.map ofChar ++ [.stop]) ∧
        ∀ more, chars.flatMap regexPiece ++ ['$'] ≠ '*' :: more := by
    induction chars with
    | nil => exact ⟨rfl, by simp⟩
    | cons c chars ih =>
        rw [List.flatMap_cons, List.append_assoc, read?_regexPiece c ih.2, ih.1]
        refine ⟨rfl, fun more same => ?_⟩
        obtain ⟨first, rest, written, noStar⟩ := regexPiece_head c
        rw [written, List.cons_append, List.cons.injEq] at same
        exact noStar same.1
  have opened : read? ('^' :: (pattern.toList.flatMap regexPiece ++ ['$'])) =
      (read? (pattern.toList.flatMap regexPiece ++ ['$'])).map (.start :: ·) := rfl
  rw [regexText, String.toList_ofList, List.cons_append, opened, (body pattern.toList).1]
  rfl

/-! ### What is accepted -/

section

variable {caseSensitive atStart : Bool} {items : List Regex} {p : Char} {text : List Char}

theorem accepts_anyRun_iff {alike : Char → Char → Prop} :
    Accepts alike atStart (.anyRun :: items) text ↔ ∃ front rest, text = front ++ rest ∧
      Accepts alike (atStart && front.isEmpty) items rest := by
  constructor
  · intro accepts
    cases accepts with
    | anyRun front accepts => exact ⟨front, _, rfl, accepts⟩
  · rintro ⟨front, rest, rfl, accepts⟩
    exact .anyRun front accepts

theorem accepts_stop_iff {alike : Char → Char → Prop} :
    Accepts alike atStart [.stop] text ↔ text = [] ∨ text = ['\n'] := by
  constructor
  · intro accepts
    cases accepts with
    | stop ended _ => exact ended
  · intro ended
    exact .stop ended (.nil text)

/-- The elements of a pattern accept what the pattern leads. -/
theorem accepts_iff_leads (pattern : List Char) :
    Accepts (Alike caseSensitive) atStart (pattern.map ofChar ++ [.stop]) text ↔
      Leads (ofValue caseSensitive) pattern text := by
  induction pattern generalizing atStart text with
  | nil =>
      rw [leads_nil_iff]
      exact accepts_stop_iff.trans atLineEnd_iff.symm
  | cons p pattern ih =>
      rw [List.map_cons, List.cons_append]
      by_cases star : p = '*'
      · subst star
        rw [show ofChar '*' = .anyRun from rfl, accepts_anyRun_iff, leads_star_iff]
        simp only [ih]
      by_cases mark : p = '?'
      · subst mark
        rw [show ofChar '?' = .any from rfl]
        cases text with
        | nil => exact iff_of_false nofun (not_leads_nil star)
        | cons c text =>
            rw [leads_mark_iff, ← ih]
            constructor
            · rintro ⟨⟩
              assumption
            · exact .any c
      have only : ofChar p = .only p := by rw [ofChar, piece_char star mark]
      rw [only]
      cases text with
      | nil => exact iff_of_false nofun (not_leads_nil star)
      | cons c text =>
          rw [leads_char_iff star mark, ← ih, ← alike_ofValue]
          constructor
          · intro accepts
            cases accepts with
            | only alike accepts => exact ⟨alike, accepts⟩
          · rintro ⟨alike, accepts⟩
            exact .only alike accepts

end

end Regex

/-- **The regular expression for a pattern accepts what the pattern matches.** -/
theorem matchesText_iff_accepts (caseSensitive : Bool) (pattern text : String) :
    matchesText (ofValue caseSensitive) pattern text = true ↔ ∃ items,
      Regex.read? (regexText pattern).toList = some items ∧
        Regex.Accepts (Alike caseSensitive) true items text.toList := by
  have matched : matchesText (ofValue caseSensitive) pattern text = true ↔
      Regex.Accepts (Alike caseSensitive) true (pattern.toList.map Regex.ofChar ++ [.stop])
        text.toList :=
    (matchesPieces_iff (fun _ => rfl) _ _).trans (Regex.accepts_iff_leads pattern.toList).symm
  rw [matched]
  constructor
  · intro accepts
    exact ⟨_, Regex.read?_regexText pattern, .start accepts⟩
  · rintro ⟨items, read, accepts⟩
    rw [Regex.read?_regexText, Option.some.injEq] at read
    subst read
    cases accepts with
    | start accepts => exact accepts

end LogAlert.Pattern
