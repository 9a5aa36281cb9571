/-
# LogAlert.Proofs.Condition.Words -- a condition without the places of its tokens

The parser looks at the kind and the text of a token; where the token stands is for messages only.
`wordsFrom` gives the tokens without their places, so that a text has the same ones wherever it
stands.

* `parse_eq_ok`: a text is a condition if it can be split into words and these can be read.
* `wordsFrom_append`: where no word goes on, two texts are split one after the other.  Blanks at the
  ends change nothing (`wordsFrom_trimChars`).
* `groupsAfter_words`: the groups of a text can be counted on its characters (`openGroups`).
-/
import LogAlert.Proofs.Condition.Layout
import LogAlert.Proofs.Condition.Stack
import LogAlert.Proofs.Text.Normal

set_option autoImplicit false

namespace LogAlert.Condition

/-- The token without its place. -/
def Token.unplaced (token : Token) : Token := { token with position := 0 }

/-- What stands for a character that ends a word: a parenthesis for itself, and nothing for a blank.
Other characters have no place in a condition. -/
def mark (c : Char) : Option (List Token) :=
  if c = '(' ∨ c = ')' then
    some [⟨if c = '(' then .openParen else .closeParen, String.ofList [c], 0⟩]
  else if Text.isBlank c then some []
  else none

/-- The words and parentheses of the characters, of which `word` is the word just before them. -/
def wordsFrom (word : List Char) : List Char → Option (List Token)
  | [] => some (endWord word 0)
  | c :: rest =>
    if isWordChar c then wordsFrom (word ++ [c]) rest
    else (mark c).bind fun between =>
      (wordsFrom [] rest).map fun words => endWord word 0 ++ (between ++ words)

/-! ## The scanner -/

theorem map_unplaced_endWord (word : List Char) (position : Nat) :
    (endWord word position).map Token.unplaced = endWord word 0 := by
  unfold endWord
  split
  · rfl
  · rw [Nat.zero_sub]
    rfl

/-- The scanner finds the same words wherever the text stands. -/
theorem map_unplaced_scanFrom (chars : List Char) :
    ∀ (position : Nat) (word : List Char),
      (scanFrom position word chars).toOption.map (·.map Token.unplaced) = wordsFrom word chars := by
  induction chars with
  | nil =>
      intro position word
      exact congrArg some (map_unplaced_endWord word position)
  | cons c rest ih =>
      intro position word
      rw [scanFrom, wordsFrom, mark]
      by_cases inWord : isWordChar c = true
      · rw [if_pos inWord, if_pos inWord]
        exact ih (position + 1) (word ++ [c])
      rw [if_neg inWord, if_neg inWord, ← ih (position + 1) []]
      by_cases paren : c = '(' ∨ c = ')'
      · rw [if_pos paren, if_pos paren, toOption_bind, ← map_unplaced_endWord word position]
        cases (scanFrom (position + 1) [] rest).toOption with
        | none => rfl
        | some tokens => simp [Except.toOption, pure, Except.pure, Token.unplaced]
      · rw [if_neg paren, if_neg paren]
        by_cases blank : Text.isBlank c = true
        · rw [if_pos blank, if_pos blank, toOption_bind, ← map_unplaced_endWord word position]
          cases (scanFrom (position + 1) [] rest).toOption with
          | none => rfl
          | some tokens => simp [Except.toOption, pure, Except.pure]
        · rw [if_neg blank, if_neg blank]
          rfl

theorem run_unplaced (tokens : List Token) (progress : Progress) :
    progress.run (tokens.map Token.unplaced) = progress.run tokens := by
  induction tokens generalizing progress with
  | nil => rfl
  | cons token tokens ih =>
      have same : progress.step token.unplaced = progress.step token := rfl
      rw [List.map_cons, Progress.run_cons, Progress.run_cons, same, funext ih]

/-- **A text is a condition if it can be split into words and these can be read.** -/
theorem parse_eq_ok {text : String} {tree : Tree} :
    parse text = .ok tree ↔
      ∃ words, wordsFrom [] text.toList = some words ∧ Progress.start.readFrom words = some tree := by
  rw [← Option.bind_eq_some_iff, ← toOption_eq_some, ← map_unplaced_scanFrom text.toList 0 [],
    parse, scan]
  cases scanFrom 0 [] text.toList with
  | error error => rfl
  | ok tokens =>
      simp only [Except.toOption, Option.map_some, Option.bind_some]
      rw [Progress.readFrom, run_unplaced, ← Progress.readFrom, ← toOption_ofTokens]
      rfl

/-! ## Texts one after the other -/

/-- A character that ends a word is none that words are made of. -/
theorem wordsFrom_mark {c : Char} (notWord : isWordChar c = false) (word rest : List Char) :
    wordsFrom word (c :: rest) = (mark c).bind fun between =>
      (wordsFrom [] rest).map fun words => endWord word 0 ++ (between ++ words) := by
  rw [wordsFrom, if_neg (by simp [notWord])]

/-- Where a word ends its token is written, and the rest is read as if it stood alone. -/
theorem wordsFrom_quits {rest : List Char} (quits : Quits rest) (word : List Char) :
    wordsFrom word rest = (wordsFrom [] rest).map fun words => endWord word 0 ++ words := by
  cases rest with
  | nil => simp [wordsFrom, endWord]
  | cons c rest =>
      rw [wordsFrom_mark (quits c rfl), wordsFrom_mark (quits c rfl)]
      cases mark c with
      | none => rfl
      | some between => simp [endWord, Function.comp_def]

theorem wordsFrom_append {rest : List Char} (quits : Quits rest) (chars : List Char) :
    ∀ word, wordsFrom word (chars ++ rest) = (wordsFrom word chars).bind fun words =>
      (wordsFrom [] rest).map fun more => words ++ more := by
  induction chars with
  | nil =>
      intro word
      exact wordsFrom_quits quits word
  | cons c chars ih =>
      intro word
      rw [List.cons_append, wordsFrom, wordsFrom]
      by_cases inWord : isWordChar c = true
      · rw [if_pos inWord, if_pos inWord]
        exact ih (word ++ [c])
      rw [if_neg inWord, if_neg inWord, ih []]
      cases mark c with
      | none => rfl
      | some between =>
          cases wordsFrom [] chars with
          | none => rfl
          | some words => simp [Function.comp_def]

theorem mark_of_isBlank {c : Char} (notOpen : c ≠ '(') (notClose : c ≠ ')')
    (blank : Text.isBlank c = true) : mark c = some [] := by
  rw [mark, if_neg (by simp [notOpen, notClose]), if_pos blank]

theorem wordsFrom_blanks {gap : List Char} (blanks : Blanks gap) (rest : List Char) :
    wordsFrom [] (gap ++ rest) = wordsFrom [] rest := by
  induction gap with
  | nil => rfl
  | cons c gap ih =>
      obtain ⟨notWord, notOpen, notClose, blank⟩ := blanks.head
      rw [List.cons_append, wordsFrom_mark notWord, mark_of_isBlank notOpen notClose blank,
        ih blanks.tail]
      simp [endWord]

/-- Blanks at the ends of a text change nothing. -/
theorem wordsFrom_trimChars (chars : List Char) :
    wordsFrom [] (Text.trimChars chars) = wordsFrom [] chars := by
  have leading : Blanks (chars.takeWhile Text.isBlank) :=
    fun c member => List.mem_takeWhile_imp member
  have trailing : Blanks ((chars.dropWhile Text.isBlank).rtakeWhile Text.isBlank) :=
    fun c member => List.mem_rtakeWhile_imp member
  have nothing : wordsFrom [] ((chars.dropWhile Text.isBlank).rtakeWhile Text.isBlank) = some [] := by
    rw [← List.append_nil (List.rtakeWhile _ _)]
    exact wordsFrom_blanks trailing []
  calc wordsFrom [] (Text.trimChars chars)
      = wordsFrom [] (Text.trimChars chars ++
          (chars.dropWhile Text.isBlank).rtakeWhile Text.isBlank) := by
        rw [wordsFrom_append trailing.quits, nothing]
        simp
    _ = wordsFrom [] (chars.dropWhile Text.isBlank) := by
        rw [Text.trimChars_eq, List.rdropWhile_append_rtakeWhile]
    _ = wordsFrom [] (chars.takeWhile Text.isBlank ++ chars.dropWhile Text.isBlank) :=
        (wordsFrom_blanks leading _).symm
    _ = wordsFrom [] chars := by rw [List.takeWhile_append_dropWhile]

/-! ## The groups of a text -/

/-- What a character does to groups. -/
def sideOf (c : Char) : Option Side :=
  if c = '(' then some .opens else if c = ')' then some .closes else none

/-- The number of groups that are open at the end of a text, if nowhere in it more groups are closed
than are open. -/
def openGroups (text : String) : Option Nat := groupsAfter sideOf 0 text.toList

/-- A word is no parenthesis. -/
theorem wordKind_ne_paren (word : List Char) :
    wordKind word ≠ .openParen ∧ wordKind word ≠ .closeParen := by
  have keyword : ∀ entry ∈ keywords, entry.2 ≠ .openParen ∧ entry.2 ≠ .closeParen := by decide
  rw [wordKind]
  cases found : keywords.lookup (String.ofList (word.map Char.toLower)) with
  | some kind =>
      obtain ⟨before, behind, split, -⟩ := List.lookup_eq_some_iff.1 found
      exact keyword (_, kind) (split ▸ List.mem_append_right _ List.mem_cons_self)
  | none =>
      dsimp only
      split <;> exact ⟨nofun, nofun⟩

theorem groupsAfter_endWord (word : List Char) (level : Nat) :
    groupsAfter Token.side level (endWord word 0) = some level := by
  obtain ⟨notOpen, notClose⟩ := wordKind_ne_paren word
  unfold endWord
  split
  · rfl
  · have plain : Token.side ⟨wordKind word, String.ofList word, 0 - word.length⟩ = none := by
      unfold Token.side
      split <;> first | rfl | contradiction
    rw [groupsAfter_cons, plain]
    rfl

theorem groupsAfter_mark {c : Char} {between : List Token} (marked : mark c = some between) (level : Nat) :
    groupsAfter Token.side level between = levelAfter (sideOf c) level := by
  unfold mark at marked
  split at marked
  · rename_i paren
    cases marked
    rw [groupsAfter_cons]
    rcases paren with rfl | rfl
    · rfl
    · cases level <;> rfl
  · rename_i notParen
    obtain ⟨notOpen, notClose⟩ := not_or.1 notParen
    split at marked
    · cases marked
      rw [sideOf, if_neg notOpen, if_neg notClose]
      rfl
    · cases marked

/-- The groups of a text can be counted on its characters. -/
theorem groupsAfter_words {chars : List Char} {words : List Token} :
    ∀ {word : List Char}, wordsFrom word chars = some words → ∀ level,
      groupsAfter Token.side level words = groupsAfter sideOf level chars := by
  induction chars generalizing words with
  | nil =>
      intro word split level
      cases split
      exact groupsAfter_endWord word level
  | cons c rest ih =>
      intro word split level
      rw [wordsFrom] at split
      by_cases inWord : isWordChar c = true
      · rw [if_pos inWord] at split
        have plain : sideOf c = none := by
          rw [sideOf, if_neg, if_neg]
          · rintro rfl
            revert inWord
            decide
          · rintro rfl
            revert inWord
            decide
        rw [ih split, groupsAfter_cons, plain]
        rfl
      · rw [if_neg inWord] at split
        obtain ⟨between, marked, split⟩ := Option.bind_eq_some_iff.1 split
        obtain ⟨more, behind, rfl⟩ := Option.map_eq_some_iff.1 split
        rw [groupsAfter_append, groupsAfter_endWord, Option.bind_some, groupsAfter_append,
          groupsAfter_mark marked, groupsAfter_cons, funext (ih behind)]

theorem openGroups_of_words {text : String} {words : List Token}
    (split : wordsFrom [] text.toList = some words) :
    groupsAfter Token.side 0 words = openGroups text :=
  groupsAfter_words split 0

/-- A condition closes no group that it has not opened. -/
theorem isSome_openGroups {text : String} {tree : Tree} (read : parse text = .ok tree) :
    (openGroups text).isSome := by
  obtain ⟨words, split, read⟩ := parse_eq_ok.1 read
  obtain ⟨after, ran, -⟩ := Option.bind_eq_some_iff.1 read
  rw [← openGroups_of_words split]
  exact Option.isSome_of_eq_some (Progress.level_of_run ran)

end LogAlert.Condition
