/-
# LogAlert.Proofs.Condition.Scanning -- what the scanner makes of any text

A text of parentheses, word characters and blanks is split into tokens that stand in it where they say
(`exists_placed_of_lexical`), and any other text is refused at its first other character
(`scanFrom_stray`).  What it means for tokens to stand in a text is read off `Placed`: they come one
behind the other, the rest is blank, and no word of them is a part of a longer one.  Written with one
blank between them the tokens are found again (`layout_spaced`).

Main statement: `scan_faithful`.
-/
import LogAlert.Proofs.Condition.Layout
import Mathlib.Data.List.TakeWhile

set_option autoImplicit false

namespace LogAlert.Condition

/-- The character may stand in a condition. -/
def Lexical (c : Char) : Prop := c = '(' ∨ c = ')' ∨ isWordChar c = true ∨ Text.isBlank c = true

instance : DecidablePred Lexical := fun c =>
  inferInstanceAs (Decidable (c = '(' ∨ c = ')' ∨ isWordChar c = true ∨ Text.isBlank c = true))

/-- The token stands at its place in the characters, which begin at `position`.  If it is a word, then
no word character stands in front of it or behind it. -/
structure Token.StandsIn (token : Token) (position : Nat) (chars : List Char) : Prop where
  lexeme : IsLexeme token.text
  kind : token.kind = kindOf token.text
  place : ∃ front back, chars = front ++ (token.text.toList ++ back) ∧
    token.position = position + front.length ∧
    (IsWord token.text → Quits front.reverse ∧ Quits back)

/-- The token extends over the place. -/
def Token.Covers (token : Token) (place : Nat) : Prop :=
  token.position ≤ place ∧ place < token.position + token.text.length

variable {position : Nat} {tokens : List Token} {chars : List Char}

/-! ## Texts that are refused -/

/-- Reading stops at the first character that has no place in a condition. -/
theorem scanFrom_stray {before behind : List Char} {c : Char} (lexical : ∀ d ∈ before, Lexical d)
    (stray : ¬ Lexical c) : ∀ (position : Nat) (word : List Char),
      scanFrom position word (before ++ c :: behind) =
        .error (.badCharacter c (position + before.length)) := by
  induction before with
  | nil =>
      intro position word
      simp only [Lexical, not_or] at stray
      obtain ⟨notOpen, notClose, notWord, notBlank⟩ := stray
      rw [List.nil_append, scanFrom, if_neg notWord, if_neg (not_or.2 ⟨notOpen, notClose⟩),
        if_neg notBlank]
      rfl
  | cons d before ih =>
      intro position word
      have behindIt := ih (fun e member => lexical e (List.mem_cons_of_mem d member)) (position + 1)
      have place : position + 1 + before.length = position + (d :: before).length := by
        rw [List.length_cons]
        omega
      rw [place] at behindIt
      rw [List.cons_append, scanFrom]
      by_cases inWord : isWordChar d = true
      · rw [if_pos inWord]
        exact behindIt _
      rw [if_neg inWord]
      by_cases paren : d = '(' ∨ d = ')'
      · rw [if_pos paren, behindIt]
        rfl
      have blank : Text.isBlank d = true := by
        rcases lexical d List.mem_cons_self with rfl | rfl | word | blank
        · exact absurd (.inl rfl) paren
        · exact absurd (.inr rfl) paren
        · exact absurd word inWord
        · exact blank
      rw [if_neg paren, if_pos blank, behindIt]
      rfl

/-- The first character that has no place in a condition. -/
theorem exists_first_stray (stray : ¬ ∀ c ∈ chars, Lexical c) :
    ∃ before c behind, chars = before ++ c :: behind ∧ (∀ d ∈ before, Lexical d) ∧ ¬ Lexical c := by
  cases found : chars.find? (fun c => !decide (Lexical c)) with
  | none =>
      refine absurd (fun c member => ?_) stray
      simpa using List.find?_eq_none.1 found c member
  | some c =>
      obtain ⟨isStray, before, behind, split, lexical⟩ := List.find?_eq_some_iff_append.1 found
      refine ⟨before, c, behind, split, fun d member => ?_, by simpa using isStray⟩
      simpa using lexical d member

/-! ## Texts that are split -/

theorem IsLexeme.toList_ne_nil {lexeme : String} (isLexeme : IsLexeme lexeme) :
    lexeme.toList ≠ [] := by
  rcases isLexeme with rfl | rfl | isWord
  · decide
  · decide
  · exact isWord.nonempty

/-- A word is as long as can be. -/
theorem exists_word {c : Char} (inWord : isWordChar c = true) (behind : List Char) :
    ∃ word rest, c :: behind = String.toList word ++ rest ∧ IsWord word ∧ Quits rest := by
  refine ⟨String.ofList (c :: behind.takeWhile isWordChar), behind.dropWhile isWordChar, ?_, ?_, ?_⟩
  · rw [String.toList_ofList, List.cons_append, List.takeWhile_append_dropWhile]
  · refine ⟨by simp, fun d member => ?_⟩
    rw [String.toList_ofList] at member
    rcases List.mem_cons.1 member with rfl | member
    · exact inWord
    · exact List.mem_takeWhile_imp member
  · intro d first
    have notWord := List.head?_dropWhile_not isWordChar behind
    rw [Option.mem_def.1 first] at notWord
    simpa using notWord

/-- In front of a text stand blanks, and then a parenthesis or a word. -/
theorem exists_lexeme (lexical : ∀ c ∈ chars, Lexical c) :
    Blanks chars ∨ ∃ gap lexeme rest, chars = gap ++ (String.toList lexeme ++ rest) ∧ Blanks gap ∧
      IsLexeme lexeme ∧ (IsWord lexeme → Quits rest) := by
  induction chars with
  | nil => exact .inl nofun
  | cons c chars ih =>
      rcases lexical c List.mem_cons_self with rfl | rfl | inWord | blank
      · exact .inr ⟨[], "(", chars, rfl, nofun, .inl rfl, fun isWord => absurd isWord (by decide)⟩
      · exact .inr ⟨[], ")", chars, rfl, nofun, .inr (.inl rfl), fun isWord => absurd isWord (by decide)⟩
      · obtain ⟨word, rest, split, isWord, quits⟩ := exists_word inWord chars
        exact .inr ⟨[], word, rest, split, nofun, .inr (.inr isWord), fun _ => quits⟩
      · rcases ih fun d member => lexical d (List.mem_cons_of_mem c member) with
          blanks | ⟨gap, lexeme, rest, rfl, blanks, found⟩
        · exact .inl (List.forall_mem_cons.2 ⟨blank, blanks⟩)
        · exact .inr ⟨c :: gap, lexeme, rest, rfl, List.forall_mem_cons.2 ⟨blank, blanks⟩, found⟩

/-- All texts of such characters are split, lexeme by lexeme. -/
theorem exists_placed_of_lexical (chars : List Char) (lexical : ∀ c ∈ chars, Lexical c)
    (position : Nat) : ∃ tokens, Placed position tokens chars := by
  rcases exists_lexeme lexical with blanks | ⟨gap, lexeme, rest, rfl, blanks, isLexeme, quits⟩
  · exact ⟨[], .blank blanks⟩
  · have shorter : rest.length < (gap ++ (lexeme.toList ++ rest)).length := by
      have nonempty := List.length_pos_iff.2 isLexeme.toList_ne_nil
      simp only [List.length_append]
      omega
    obtain ⟨tokens, placed⟩ := exists_placed_of_lexical rest
      (fun c member => lexical c (List.mem_append_right _ (List.mem_append_right _ member)))
      (position + gap.length + lexeme.length)
    exact ⟨_, .token blanks isLexeme quits placed⟩
termination_by chars.length

/-! ## Tokens in a text -/

theorem IsLexeme.length_pos {lexeme : String} (isLexeme : IsLexeme lexeme) : 0 < lexeme.length := by
  rw [← String.length_toList]
  exact List.length_pos_iff.2 isLexeme.toList_ne_nil

theorem Placed.le_position (placed : Placed position tokens chars) :
    ∀ token ∈ tokens, position ≤ token.position := by
  induction placed with
  | blank => nofun
  | token blanks isLexeme quits placed ih =>
      refine List.forall_mem_cons.2 ⟨Nat.le_add_right _ _, fun token member => ?_⟩
      have behind := ih token member
      omega

theorem Placed.increasing (placed : Placed position tokens chars) :
    tokens.Pairwise (·.position < ·.position) := by
  induction placed with
  | blank => exact .nil
  | token blanks isLexeme quits placed ih =>
      refine .cons (fun token member => ?_) ih
      have behind := placed.le_position token member
      have nonempty := isLexeme.length_pos
      dsimp only
      omega

/-- Whatever no token extends over is blank. -/
theorem Placed.blank_of_uncovered (placed : Placed position tokens chars) {place : Nat} {c : Char}
    (here : chars[place]? = some c) (uncovered : ∀ token ∈ tokens, ¬ token.Covers (position + place)) :
    Text.isBlank c = true := by
  induction placed generalizing place with
  | blank blanks => exact blanks c (List.mem_of_getElem? here)
  | @token position gap chars lexeme tokens blanks isLexeme quits placed ih =>
      by_cases inGap : place < gap.length
      · rw [List.getElem?_append_left inGap] at here
        exact blanks c (List.mem_of_getElem? here)
      by_cases inLexeme : place < gap.length + lexeme.length
      · refine absurd ⟨?_, ?_⟩ (uncovered _ List.mem_cons_self)
        · dsimp only
          omega
        · dsimp only
          omega
      · rw [List.getElem?_append_right (by omega), List.getElem?_append_right
          (by rw [String.length_toList]; omega), String.length_toList] at here
        refine ih here fun token member => ?_
        have same : position + gap.length + lexeme.length + (place - gap.length - lexeme.length) =
            position + place := by omega
        rw [same]
        exact uncovered token (List.mem_cons_of_mem _ member)

theorem quits_append {front back : List Char} (nonempty : front ≠ []) :
    Quits (front ++ back) ↔ Quits front := by
  obtain ⟨c, rest, rfl⟩ := List.exists_cons_of_ne_nil nonempty
  rfl

theorem not_quits_of_word {word : String} (isWord : IsWord word) (back : List Char) :
    ¬ Quits (word.toList ++ back) := by
  rw [quits_append isWord.nonempty]
  obtain ⟨c, rest, split⟩ := List.exists_cons_of_ne_nil isWord.nonempty
  intro quits
  have inWord := isWord.chars c (split ▸ List.mem_cons_self)
  rw [quits c (split ▸ rfl)] at inWord
  cases inWord

/-- Behind a lexeme and in front of a word there is no word character. -/
theorem quits_reverse_of_lexeme {lexeme word : String} {gap front back : List Char}
    (isLexeme : IsLexeme lexeme) (quits : IsWord lexeme → Quits (front ++ (word.toList ++ back)))
    (isWord : IsWord word) (apart : Quits front.reverse) :
    Quits (gap ++ (lexeme.toList ++ front)).reverse := by
  have nonempty : lexeme.toList.reverse ≠ [] := by simpa using isLexeme.toList_ne_nil
  rw [List.reverse_append, List.reverse_append, List.append_assoc]
  by_cases beside : front = []
  · subst beside
    rw [List.reverse_nil, List.nil_append, quits_append nonempty]
    rcases isLexeme with rfl | rfl | isWord'
    · decide
    · decide
    · exact absurd (quits isWord') (not_quits_of_word isWord back)
  · rwa [quits_append (by simpa using beside)]

theorem Placed.standsIn (placed : Placed position tokens chars) :
    ∀ token ∈ tokens, token.StandsIn position chars := by
  induction placed with
  | blank => nofun
  | @token position gap chars lexeme tokens blanks isLexeme quits placed ih =>
      refine List.forall_mem_cons.2 ⟨⟨isLexeme, rfl, gap, chars, rfl, rfl, fun isWord => ?_⟩, ?_⟩
      · have reversed : Blanks gap.reverse := fun c member => blanks c (List.mem_reverse.1 member)
        exact ⟨reversed.quits, quits isWord⟩
      · intro token member
        obtain ⟨isLexeme', kind, front, back, rfl, place, apart⟩ := ih token member
        refine ⟨isLexeme', kind, gap ++ (lexeme.toList ++ front), back, ?_, ?_, fun isWord => ?_⟩
        · simp only [List.append_assoc]
        · rw [place, List.length_append, List.length_append, String.length_toList]
          omega
        · exact ⟨quits_reverse_of_lexeme isLexeme quits isWord (apart isWord).1, (apart isWord).2⟩

/-! ## Texts written again -/

/-- Lexemes with one blank between them are laid out, behind any blanks. -/
theorem layout_spaced {lexemes : List String} (each : ∀ lexeme ∈ lexemes, IsLexeme lexeme) :
    ∀ gap, Blanks gap → Layout lexemes (gap ++ [' '].intercalate (lexemes.map String.toList)) := by
  have step {lexeme : String} {lexemes : List String} {gap chars : List Char} (blanks : Blanks gap)
      (isLexeme : IsLexeme lexeme) (quits : Quits chars) (layout : Layout lexemes chars) :
      Layout (lexeme :: lexemes) (gap ++ (lexeme.toList ++ chars)) := by
    rcases isLexeme with rfl | rfl | isWord
    · exact .paren blanks (.inl rfl) layout
    · exact .paren blanks (.inr rfl) layout
    · exact .word blanks isWord quits layout
  induction lexemes with
  | nil =>
      intro gap blanks
      rw [List.map_nil, List.intercalate_nil, List.append_nil]
      exact .blank blanks
  | cons lexeme lexemes ih =>
      intro gap blanks
      have isLexeme := each lexeme List.mem_cons_self
      cases lexemes with
      | nil =>
          have nothing : Blanks [] := nofun
          simpa using step blanks isLexeme nothing.quits (.blank nothing)
      | cons next others =>
          have space : Blanks [' '] := by decide
          have behind := ih (fun l member => each l (List.mem_cons_of_mem _ member)) [' '] space
          have quits : Quits ([' '] ++ [' '].intercalate ((next :: others).map String.toList)) :=
            (quits_append (List.cons_ne_nil _ _)).2 space.quits
          rw [List.map_cons, List.map_cons, List.intercalate_cons_cons, List.append_assoc]
          exact step blanks isLexeme quits behind

theorem map_of_spelled {lexemes : List String} (spelled : List.Forall₂ Spells tokens lexemes) :
    tokens.map (fun token => (token.kind, token.text)) =
      lexemes.map fun lexeme => (kindOf lexeme, lexeme) := by
  induction spelled with
  | nil => rfl
  | cons one _ ih => rw [List.map_cons, List.map_cons, ih, one.1, one.2]

theorem scan_spaced {lexemes : List String} (each : ∀ lexeme ∈ lexemes, IsLexeme lexeme) :
    ∃ tokens, scan (" ".intercalate lexemes) = .ok tokens ∧ List.Forall₂ Spells tokens lexemes := by
  apply scan_layout
  rw [String.toList_intercalate]
  exact layout_spaced each [] nofun

/-- **The scanner neither skips nor splits anything.**  A text is refused at its first character that
is no parenthesis, no word character and no blank; if there is none, it is split into tokens.  These
stand one behind the other at the places they tell, words that are as long as can be among them, and
the rest of the text is blank.  Written with one blank between them they are found again. -/
theorem scan_faithful (text : String) :
    (∃ before c behind, text.toList = before ++ c :: behind ∧ (∀ d ∈ before, Lexical d) ∧
        ¬ Lexical c ∧ scan text = .error (.badCharacter c before.length)) ∨
      ∃ tokens, scan text = .ok tokens ∧ (∀ c ∈ text.toList, Lexical c) ∧
        tokens.Pairwise (·.position < ·.position) ∧
        (∀ token ∈ tokens, token.StandsIn 0 text.toList) ∧
        (∀ place c, text.toList[place]? = some c → (∀ token ∈ tokens, ¬ token.Covers place) →
          Text.isBlank c = true) ∧
        ∃ again, scan (" ".intercalate (tokens.map (·.text))) = .ok again ∧
          again.map (fun token => (token.kind, token.text)) =
            tokens.map fun token => (token.kind, token.text) := by
  by_cases lexical : ∀ c ∈ text.toList, Lexical c
  · obtain ⟨tokens, placed⟩ := exists_placed_of_lexical text.toList lexical 0
    have stands := placed.standsIn
    have lexemes : ∀ lexeme ∈ tokens.map (·.text), IsLexeme lexeme := by
      rintro _ member
      obtain ⟨token, inTokens, rfl⟩ := List.mem_map.1 member
      exact (stands token inTokens).lexeme
    obtain ⟨again, scanned, spelled⟩ := scan_spaced lexemes
    have own : List.Forall₂ Spells tokens (tokens.map (·.text)) :=
      List.forall₂_map_right_iff.2 (List.forall₂_same.2 fun token member =>
        ⟨(stands token member).kind, rfl⟩)
    refine .inr ⟨tokens, scanFrom_placed placed, lexical, placed.increasing, stands, ?_, again,
      scanned, (map_of_spelled spelled).trans (map_of_spelled own).symm⟩
    intro place c here uncovered
    exact placed.blank_of_uncovered here ((Nat.zero_add place).symm ▸ uncovered)
  · obtain ⟨before, c, behind, split, all, stray⟩ := exists_first_stray lexical
    refine .inl ⟨before, c, behind, split, all, stray, ?_⟩
    rw [scan, split, scanFrom_stray all stray, Nat.zero_add]

end LogAlert.Condition
