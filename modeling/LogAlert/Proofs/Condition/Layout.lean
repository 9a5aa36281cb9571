/-
# LogAlert.Proofs.Condition.Layout -- conditions written down with blanks

`Layout lexemes chars` says that the characters are the lexemes in their order, words and
parentheses, with any blanks around them; only between two words that are neighbours there must be
one.  Nothing in it refers to the scanner.

`Placed position tokens chars` says the same of tokens, which know where they stand.

Main statement: `scan_layout`.  The scanner finds in such a text one token for each lexeme, of the
kind that the lexeme has by itself (`kindOf`), whatever the blanks are; and tokens that are placed in
a text are those that it finds (`scanFrom_placed`).  The scanner carries the word that it is in; a
word ends where `Quits` holds of what follows, and there the scanner goes on as if it began anew
(`scanFrom_quits`).
-/
import LogAlert.Condition.Token
import LogAlert.Proofs.Outcome
import Mathlib.Tactic.Common

set_option autoImplicit false

namespace LogAlert.Condition

/-- At least one character, all of them such that words are made of. -/
structure IsWord (word : String) : Prop where
  nonempty : word.toList ≠ []
  chars : ∀ c ∈ word.toList, isWordChar c = true

/-- Nothing but blanks. -/
def Blanks (gap : List Char) : Prop := ∀ c ∈ gap, Text.isBlank c = true

/-- No word goes on here. -/
def Quits (chars : List Char) : Prop := ∀ c ∈ chars.head?, isWordChar c = false

instance (word : String) : Decidable (IsWord word) :=
  decidable_of_iff (word.toList ≠ [] ∧ word.toList.all isWordChar = true)
    ⟨fun holds => ⟨holds.1, List.all_eq_true.1 holds.2⟩,
      fun isWord => ⟨isWord.nonempty, List.all_eq_true.2 isWord.chars⟩⟩

instance (gap : List Char) : Decidable (Blanks gap) :=
  decidable_of_iff (gap.all Text.isBlank = true) List.all_eq_true

instance (chars : List Char) : Decidable (Quits chars) :=
  decidable_of_iff (chars.head?.all (!isWordChar ·) = true) (by simp [Quits, Option.all_eq_true])

/-- The characters are these lexemes with blanks around them. -/
inductive Layout : List String → List Char → Prop where
  | blank {gap : List Char} : Blanks gap → Layout [] gap
  | paren {gap chars : List Char} {c : Char} {lexemes : List String} :
      Blanks gap → c = '(' ∨ c = ')' → Layout lexemes chars →
      Layout (String.ofList [c] :: lexemes) (gap ++ c :: chars)
  | word {gap chars : List Char} {word : String} {lexemes : List String} :
      Blanks gap → IsWord word → Quits chars → Layout lexemes chars →
      Layout (word :: lexemes) (gap ++ (word.toList ++ chars))

/-- The kind of token that a lexeme is. -/
def kindOf (lexeme : String) : Kind :=
  if lexeme = "(" then .openParen else if lexeme = ")" then .closeParen else wordKind lexeme.toList

/-- The token is this lexeme, wherever it stands. -/
def Spells (token : Token) (lexeme : String) : Prop :=
  token.kind = kindOf lexeme ∧ token.text = lexeme

/-- A parenthesis or a word. -/
def IsLexeme (lexeme : String) : Prop := lexeme = "(" ∨ lexeme = ")" ∨ IsWord lexeme

/-- The characters from `position` on are these tokens with blanks around them. -/
inductive Placed : Nat → List Token → List Char → Prop where
  | blank {position : Nat} {gap : List Char} : Blanks gap → Placed position [] gap
  | token {position : Nat} {gap chars : List Char} {lexeme : String} {tokens : List Token} :
      Blanks gap → IsLexeme lexeme → (IsWord lexeme → Quits chars) →
      Placed (position + gap.length + lexeme.length) tokens chars →
      Placed position (⟨kindOf lexeme, lexeme, position + gap.length⟩ :: tokens)
        (gap ++ (lexeme.toList ++ chars))

/-! ## Blanks and word characters -/

/-- Letters, digits and five marks. -/
theorem isWordChar_cases {c : Char} (inWord : isWordChar c = true) :
    (48 ≤ c.toNat ∧ c.toNat ≤ 57 ∨ 65 ≤ c.toNat ∧ c.toNat ≤ 90 ∨ 97 ≤ c.toNat ∧ c.toNat ≤ 122) ∨
      c ∈ ['_', '.', '*', '?', '-'] := by
  delta isWordChar Char.isAlphanum Char.isAlpha Char.isUpper Char.isLower Char.isDigit at inWord
  simp only [Bool.or_eq_true, Bool.and_eq_true, decide_eq_true_eq, UInt32.le_iff_toNat_le,
    ge_iff_le] at inWord
  change ((((((65 ≤ c.toNat ∧ c.toNat ≤ 90 ∨ 97 ≤ c.toNat ∧ c.toNat ≤ 122) ∨
    48 ≤ c.toNat ∧ c.toNat ≤ 57) ∨ c = '_') ∨ c = '.') ∨ c = '*') ∨ c = '?') ∨ c = '-' at inWord
  simp only [List.mem_cons, List.not_mem_nil, or_false]
  tauto

theorem isBlank_of_isWordChar {c : Char} (inWord : isWordChar c = true) :
    Text.isBlank c = false := by
  rcases isWordChar_cases inWord with ranges | mark
  · simp only [Text.isBlank, Bool.or_eq_false_iff, Bool.and_eq_false_iff, beq_eq_false_iff_ne,
      decide_eq_false_iff_not]
    omega
  · have none : ['_', '.', '*', '?', '-'].any Text.isBlank = false := by decide
    exact Bool.eq_false_iff.2 (List.any_eq_false.1 none c mark)

theorem Blanks.head {c : Char} {gap : List Char} (blanks : Blanks (c :: gap)) :
    isWordChar c = false ∧ c ≠ '(' ∧ c ≠ ')' ∧ Text.isBlank c = true := by
  have blank := blanks c List.mem_cons_self
  refine ⟨?_, ?_, ?_, blank⟩
  · by_contra inWord
    rw [isBlank_of_isWordChar (by simpa using inWord)] at blank
    cases blank
  · rintro rfl
    revert blank
    decide
  · rintro rfl
    revert blank
    decide

theorem Blanks.tail {c : Char} {gap : List Char} (blanks : Blanks (c :: gap)) : Blanks gap :=
  fun _ member => blanks _ (List.mem_cons_of_mem c member)

theorem Blanks.quits {gap : List Char} (blanks : Blanks gap) : Quits gap := by
  cases gap with
  | nil => nofun
  | cons c gap =>
      rintro _ ⟨⟩
      exact blanks.head.1

/-! ## The scanner between lexemes -/

theorem scanFrom_word {word rest : List Char} (inWord : ∀ c ∈ word, isWordChar c = true) :
    ∀ (position : Nat) (before : List Char),
      scanFrom position before (word ++ rest) =
        scanFrom (position + word.length) (before ++ word) rest := by
  induction word with
  | nil => intro position before; simp
  | cons c word ih =>
      intro position before
      rw [List.cons_append, scanFrom, if_pos (inWord c List.mem_cons_self),
        ih (fun c' member => inWord c' (List.mem_cons_of_mem c member)), List.length_cons,
        List.append_assoc, List.singleton_append]
      congr 1
      omega

theorem scanFrom_blanks {gap rest : List Char} (blanks : Blanks gap) :
    ∀ position, scanFrom position [] (gap ++ rest) = scanFrom (position + gap.length) [] rest := by
  induction gap with
  | nil => intro position; rfl
  | cons c gap ih =>
      intro position
      obtain ⟨notWord, notOpen, notClose, blank⟩ := blanks.head
      have goesOn : scanFrom position [] (c :: (gap ++ rest)) =
          scanFrom (position + 1) [] (gap ++ rest) := by
        simp only [scanFrom, notWord, notOpen, notClose, blank, endWord, List.isEmpty_nil]
        simp
      rw [List.cons_append, goesOn, ih blanks.tail, List.length_cons]
      congr 1
      omega

/-- Where a word ends its token is written, and the rest is read as if it stood alone. -/
theorem scanFrom_quits {rest : List Char} (quits : Quits rest) (position : Nat)
    (word : List Char) {tokens : List Token} (scanned : scanFrom position [] rest = .ok tokens) :
    scanFrom position word rest = .ok (endWord word position ++ tokens) := by
  cases rest with
  | nil =>
      cases scanned
      simp [scanFrom, endWord]
  | cons c rest =>
      have notWord : isWordChar c = false := quits c rfl
      rw [scanFrom] at scanned ⊢
      simp only [notWord, Bool.false_eq_true, if_false] at scanned ⊢
      by_cases paren : c = '(' ∨ c = ')'
      · rw [if_pos paren] at scanned ⊢
        obtain ⟨behind, read, scanned⟩ := bind_eq_ok.1 scanned
        cases scanned
        rw [read]
        rfl
      · rw [if_neg paren] at scanned ⊢
        by_cases blank : Text.isBlank c = true
        · rw [if_pos blank] at scanned ⊢
          obtain ⟨behind, read, scanned⟩ := bind_eq_ok.1 scanned
          cases scanned
          rw [read]
          rfl
        · rw [if_neg blank] at scanned
          cases scanned

/-! ## The scanner on a layout -/

theorem kindOf_word {word : String} (isWord : IsWord word) : kindOf word = wordKind word.toList := by
  have notOpen : word ≠ "(" := by
    rintro rfl
    exact absurd (isWord.chars '(' (by decide)) (by decide)
  have notClose : word ≠ ")" := by
    rintro rfl
    exact absurd (isWord.chars ')' (by decide)) (by decide)
  rw [kindOf, if_neg notOpen, if_neg notClose]

/-- A parenthesis is a token of its own. -/
theorem scanFrom_paren {lexeme : String} (paren : lexeme = "(" ∨ lexeme = ")") {position : Nat}
    {rest : List Char} {tokens : List Token}
    (scanned : scanFrom (position + lexeme.length) [] rest = .ok tokens) :
    scanFrom position [] (lexeme.toList ++ rest) =
      .ok (⟨kindOf lexeme, lexeme, position⟩ :: tokens) := by
  rcases paren with rfl | rfl
  · change (scanFrom (position + 1) [] rest >>= fun tokens => _) = _
    rw [show scanFrom (position + 1) [] rest = .ok tokens from scanned]
    rfl
  · change (scanFrom (position + 1) [] rest >>= fun tokens => _) = _
    rw [show scanFrom (position + 1) [] rest = .ok tokens from scanned]
    rfl

/-- Tokens that are placed in a text are those that the scanner finds. -/
theorem scanFrom_placed {position : Nat} {tokens : List Token} {chars : List Char}
    (placed : Placed position tokens chars) : scanFrom position [] chars = .ok tokens := by
  induction placed with
  | @blank position gap blanks =>
      rw [← List.append_nil gap, scanFrom_blanks blanks]
      rfl
  | @token position gap chars lexeme tokens blanks isLexeme quits _ ih =>
      rw [scanFrom_blanks blanks]
      rcases or_assoc.2 isLexeme with paren | isWord
      · exact scanFrom_paren paren ih
      · rw [← String.length_toList] at ih
        rw [scanFrom_word isWord.chars, List.nil_append, scanFrom_quits (quits isWord) _ _ ih, endWord,
          if_neg (by simpa using isWord.nonempty), kindOf_word isWord]
        simp

/-- Lexemes that are laid out are placed. -/
theorem exists_placed {lexemes : List String} {chars : List Char} (layout : Layout lexemes chars) :
    ∀ position, ∃ tokens, Placed position tokens chars ∧ List.Forall₂ Spells tokens lexemes := by
  induction layout with
  | blank blanks =>
      intro position
      exact ⟨[], .blank blanks, .nil⟩
  | @paren gap chars c lexemes blanks paren _ ih =>
      intro position
      obtain ⟨tokens, placed, spelled⟩ := ih (position + gap.length + 1)
      rcases paren with rfl | rfl
      · have opening : IsLexeme "(" := .inl rfl
        have noWord : ¬ IsWord "(" := by decide
        exact ⟨_, .token blanks opening (absurd · noWord) placed, .cons ⟨rfl, rfl⟩ spelled⟩
      · have closing : IsLexeme ")" := .inr (.inl rfl)
        have noWord : ¬ IsWord ")" := by decide
        exact ⟨_, .token blanks closing (absurd · noWord) placed, .cons ⟨rfl, rfl⟩ spelled⟩
  | @word gap chars word lexemes blanks isWord quits _ ih =>
      intro position
      obtain ⟨tokens, placed, spelled⟩ := ih (position + gap.length + word.length)
      exact ⟨_, .token blanks (.inr (.inr isWord)) (fun _ => quits) placed, .cons ⟨rfl, rfl⟩ spelled⟩

theorem scanFrom_layout {lexemes : List String} {chars : List Char} (layout : Layout lexemes chars)
    (position : Nat) : ∃ tokens, scanFrom position [] chars = .ok tokens ∧
      List.Forall₂ Spells tokens lexemes := by
  obtain ⟨tokens, placed, spelled⟩ := exists_placed layout position
  exact ⟨tokens, scanFrom_placed placed, spelled⟩

/-- **The scanner finds the lexemes.**  In a text that lays out lexemes it finds one token for each
of them, in their order, whatever blanks are around them. -/
theorem scan_layout {lexemes : List String} {text : String}
    (layout : Layout lexemes text.toList) :
    ∃ tokens, scan text = .ok tokens ∧ List.Forall₂ Spells tokens lexemes :=
  scanFrom_layout layout 0

end LogAlert.Condition
