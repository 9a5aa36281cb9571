/-
# LogAlert.Proofs.Condition.Printing -- a printed condition is read back

`Tree.lexemes` prints a condition with as few parentheses as its grammar allows: since `and` and
`or` are grouped from the left, only a conjunction or disjunction that stands right of a keyword has
to be enclosed.  The words may then be laid out with any blanks.

Main statement: `parse_layout`.  The tokens of such a text are an expression of the grammar
(`isRead`, by induction on the tree: a tree is an expression as it is printed and a term once it is
enclosed), so that `ofTokens_of_isExpression` gives the tree.
-/
import LogAlert.Proofs.Condition.Acceptance
import LogAlert.Proofs.Condition.Layout

set_option autoImplicit false

namespace LogAlert.Condition

/-- A word that is neither a keyword, in whatever case, nor a numeral. -/
structure IsName (word : String) : Prop extends IsWord word where
  notKeyword : String.ofList (word.toList.map Char.toLower) ∉ keywords.map Prod.fst
  notNumeral : ∃ c ∈ word.toList, c.isDigit = false

instance (word : String) : Decidable (IsName word) :=
  decidable_of_iff
    (IsWord word ∧ String.ofList (word.toList.map Char.toLower) ∉ keywords.map Prod.fst ∧
      word.toList.any (!·.isDigit) = true)
    ⟨fun holds => ⟨holds.1, holds.2.1, by simpa using holds.2.2⟩,
      fun isName => ⟨isName.toIsWord, isName.notKeyword, by simpa using isName.notNumeral⟩⟩

namespace Tree

/-- The tree is a conjunction or a disjunction. -/
def isJoined : Tree → Bool
  | .and _ _ | .or _ _ => true
  | .selection _ | .not _ | .quantified _ _ => false

/-- The lexemes of a tree, in parentheses if it is a conjunction or a disjunction. -/
def enclosed (t : Tree) (lexemes : List String) : List String :=
  if t.isJoined then "(" :: (lexemes ++ [")"]) else lexemes

/-- The tree as it is printed. -/
def lexemes : Tree → List String
  | .selection name => [name]
  | .not t => "not" :: t.enclosed t.lexemes
  | .and l r => l.lexemes ++ "and" :: r.enclosed r.lexemes
  | .or l r => l.lexemes ++ "or" :: r.enclosed r.lexemes
  | .quantified pattern none => ["all", "of", pattern]
  | .quantified pattern (some count) => [Text.natText count, "of", pattern]

/-- Names and patterns are names, and counts have no more digits than are read. -/
def Printable : Tree → Prop
  | .selection name => IsName name
  | .not t => t.Printable
  | .and l r | .or l r => l.Printable ∧ r.Printable
  | .quantified pattern none => IsName pattern
  | .quantified pattern (some count) =>
    IsName pattern ∧ (Text.natText count).length ≤ Text.digitLimit

instance decidablePrintable : (t : Tree) → Decidable t.Printable
  | .selection name => inferInstanceAs (Decidable (IsName name))
  | .not t => decidablePrintable t
  | .and l r | .or l r => @instDecidableAnd _ _ (decidablePrintable l) (decidablePrintable r)
  | .quantified pattern none => inferInstanceAs (Decidable (IsName pattern))
  | .quantified pattern (some count) =>
    inferInstanceAs
      (Decidable (IsName pattern ∧ (Text.natText count).length ≤ Text.digitLimit))

end Tree

/-- The names among the lexemes, in their order; what stands right behind `of` is a pattern.  The
flag says whether the lexeme in front of these was `of`. -/
def mentioned (behindOf : Bool) : List String → List String
  | [] => []
  | lexeme :: rest =>
    if kindOf lexeme = .name ∧ behindOf = false then lexeme :: mentioned false rest
    else mentioned (kindOf lexeme = .of) rest

/-! ## The kinds of printed words -/

theorem kindOf_name {word : String} (isName : IsName word) : kindOf word = .name := by
  rw [kindOf_word isName.toIsWord, wordKind]
  have unknown : keywords.lookup (String.ofList (word.toList.map Char.toLower)) = none := by
    rw [List.lookup_eq_none_iff]
    intro entry member
    rw [bne_iff_ne]
    intro same
    exact isName.notKeyword (same ▸ List.mem_map_of_mem member)
  obtain ⟨c, member, notDigit⟩ := isName.notNumeral
  have notAll : word.toList.all Char.isDigit = false := by
    rw [List.all_eq_false]
    exact ⟨c, member, by simp [notDigit]⟩
  rw [unknown, notAll]
  rfl

theorem toList_natText (n : Nat) : (Text.natText n).toList = Nat.toDigits 10 n := by
  rw [Text.natText, Nat.toList_repr]

theorem isWordChar_of_isDigit {c : Char} (digit : c.isDigit = true) : isWordChar c = true := by
  simp [isWordChar, Char.isAlphanum, digit]

theorem isWord_natText (n : Nat) : IsWord (Text.natText n) where
  nonempty := toList_natText n ▸ Nat.toDigits_ne_nil
  chars c member := isWordChar_of_isDigit
    (Text.isDigit_of_mem_toDigits c (toList_natText n ▸ member))

theorem toLower_of_isDigit {c : Char} (digit : c.isDigit = true) : c.toLower = c := by
  have bounds := Text.bounds_of_isDigit digit
  have notUpper : ¬ (65 ≤ c.toNat ∧ c.toNat ≤ 90) := by omega
  exact dif_neg notUpper

theorem noDigit_of_mem_keywords {entry : String × Kind} (member : entry ∈ keywords) {c : Char}
    (inKeyword : c ∈ entry.1.toList) : c.isDigit = false := by
  have none : keywords.any (fun entry => entry.1.toList.any Char.isDigit) = false := by decide
  have noDigit := Bool.eq_false_iff.2 (List.any_eq_false.1 none entry member)
  exact Bool.eq_false_iff.2 (List.any_eq_false.1 noDigit c inKeyword)

/-- Digits have no upper case, and no keyword has a digit in it. -/
theorem wordKind_of_digits {word : List Char} (nonempty : word ≠ [])
    (digits : ∀ c ∈ word, c.isDigit = true) : wordKind word = .number := by
  have unknown : keywords.lookup (String.ofList (word.map Char.toLower)) = none := by
    rw [List.lookup_eq_none_iff]
    intro entry member
    rw [bne_iff_ne]
    intro same
    obtain ⟨c, member'⟩ := List.exists_mem_of_ne_nil _ nonempty
    have inKeyword : c ∈ entry.1.toList := by
      rw [← same, String.toList_ofList, List.mem_map]
      exact ⟨c, member', toLower_of_isDigit (digits c member')⟩
    have noDigit := noDigit_of_mem_keywords member inKeyword
    rw [digits c member'] at noDigit
    cases noDigit
  rw [wordKind, unknown, List.all_eq_true.2 digits]
  rfl

theorem kindOf_natText (n : Nat) : kindOf (Text.natText n) = .number := by
  rw [kindOf_word (isWord_natText n), toList_natText]
  exact wordKind_of_digits Nat.toDigits_ne_nil Text.isDigit_of_mem_toDigits

/-! ## Printed trees are in the grammar -/

theorem joinAll_snoc (first last : Tree) (joined : List (Joining × Tree)) (how : Joining) :
    joinAll first (joined ++ [(how, last)]) = how.join (joinAll first joined) last := by
  simp [joinAll]

theorem IsTail.snoc {tokens more : List Token} {joined : List (Joining × Tree)} {how : Joining}
    {keyword : Token} {last : Tree} (isTail : IsTail tokens joined)
    (kind : keyword.kind = how.kind) (isTerm : IsTerm more last) :
    IsTail (tokens ++ keyword :: more) (joined ++ [(how, last)]) := by
  induction joined generalizing tokens with
  | nil =>
      cases isTail
      simpa using IsTail.cons kind isTerm .nil
  | cons first joined ih =>
      cases isTail with
      | cons kind' isTerm' isTail =>
          simpa using IsTail.cons kind' isTerm' (ih isTail)

/-- What stands left of a keyword needs no parentheses. -/
theorem IsExpression.snoc {tokens more : List Token} {left right : Tree} {how : Joining}
    {keyword : Token} (isExpression : IsExpression tokens left)
    (kind : keyword.kind = how.kind) (isTerm : IsTerm more right) :
    IsExpression (tokens ++ keyword :: more) (how.join left right) := by
  cases isExpression with
  | joined first isTail =>
      rw [← joinAll_snoc, List.append_assoc]
      exact .joined first (isTail.snoc kind isTerm)

theorem spelled_cons {tokens : List Token} {lexeme : String} {lexemes : List String}
    (spelled : List.Forall₂ Spells tokens (lexeme :: lexemes)) :
    ∃ token others, tokens = token :: others ∧ token.kind = kindOf lexeme ∧ token.text = lexeme ∧
      List.Forall₂ Spells others lexemes := by
  obtain ⟨token, others, ⟨kind, text⟩, behind, rfl⟩ := List.forall₂_cons_right_iff.1 spelled
  exact ⟨token, others, rfl, kind, text, behind⟩

theorem spelled_append {tokens : List Token} {front back : List String}
    (spelled : List.Forall₂ Spells tokens (front ++ back)) :
    ∃ first second, tokens = first ++ second ∧ List.Forall₂ Spells first front ∧
      List.Forall₂ Spells second back :=
  ⟨_, _, (List.take_append_drop _ _).symm, List.forall₂_take_append _ _ _ spelled,
    List.forall₂_drop_append _ _ _ spelled⟩

/-- Tokens that spell a tree are an expression with this tree, and a term if they spell it as an
enclosed one. -/
structure IsRead (t : Tree) : Prop where
  expression {tokens : List Token} :
    List.Forall₂ Spells tokens t.lexemes → IsExpression tokens t
  term {tokens : List Token} :
    List.Forall₂ Spells tokens (t.enclosed t.lexemes) → IsTerm tokens t

theorem IsRead.of_term {t : Tree} (plain : t.isJoined = false)
    (isTerm : ∀ {tokens : List Token}, List.Forall₂ Spells tokens t.lexemes → IsTerm tokens t) :
    IsRead t := by
  constructor
  · intro tokens spelled
    exact (isTerm spelled).expression
  · intro tokens spelled
    rw [Tree.enclosed, plain, if_neg Bool.false_ne_true] at spelled
    exact isTerm spelled

theorem IsRead.of_expression {t : Tree} (isJoined : t.isJoined = true)
    (isExpression : ∀ {tokens : List Token},
      List.Forall₂ Spells tokens t.lexemes → IsExpression tokens t) : IsRead t := by
  constructor
  · intro tokens spelled
    exact isExpression spelled
  · intro tokens spelled
    rw [Tree.enclosed, isJoined, if_pos rfl] at spelled
    obtain ⟨opening, behind, rfl, isOpen, -, rest⟩ := spelled_cons spelled
    obtain ⟨inside, last, rfl, printed, closed⟩ := spelled_append rest
    obtain ⟨closing, _, rfl, isClose, -, nothing⟩ := spelled_cons closed
    cases nothing
    exact .group isOpen (isExpression printed) isClose

/-- Two trees with a keyword between them. -/
theorem IsRead.joined {left right : Tree} {word : String} (how : Joining)
    (first : IsRead left) (second : IsRead right) (kind : kindOf word = how.kind)
    (printed : (how.join left right).lexemes =
      left.lexemes ++ word :: right.enclosed right.lexemes) :
    IsRead (how.join left right) := by
  refine .of_expression (by cases how <;> rfl) fun spelled => ?_
  rw [printed] at spelled
  obtain ⟨before, behind, rfl, spelledLeft, rest⟩ := spelled_append spelled
  obtain ⟨keyword, operand, rfl, isKeyword, -, spelledRight⟩ := spelled_cons rest
  exact (first.expression spelledLeft).snoc (isKeyword.trans kind) (second.term spelledRight)

/-- The two words of a quantifier behind its first one. -/
theorem spelled_quantifier {tokens : List Token} {first pattern : String}
    (isName : IsName pattern) (spelled : List.Forall₂ Spells tokens [first, "of", pattern]) :
    ∃ quantity of named, tokens = [quantity, of, named] ∧ quantity.kind = kindOf first ∧
      quantity.text = first ∧ of.kind = .of ∧ named.kind = .name ∧ named.text = pattern := by
  obtain ⟨quantity, _, rfl, kind, text, behind⟩ := spelled_cons spelled
  obtain ⟨of, _, rfl, isOf, -, behind⟩ := spelled_cons behind
  obtain ⟨named, _, rfl, isPattern, same, nothing⟩ := spelled_cons behind
  cases nothing
  exact ⟨quantity, of, named, rfl, kind, text, isOf, isPattern.trans (kindOf_name isName), same⟩

theorem isRead {t : Tree} (printable : t.Printable) : IsRead t := by
  induction t with
  | selection name =>
      refine .of_term rfl fun spelled => ?_
      obtain ⟨token, _, rfl, kind, text, nothing⟩ := spelled_cons spelled
      cases nothing
      rw [← text]
      exact .name (kind.trans (kindOf_name printable))
  | not t ih =>
      refine .of_term rfl fun spelled => ?_
      obtain ⟨keyword, operand, rfl, kind, -, printed⟩ := spelled_cons spelled
      exact .not kind ((ih printable).term printed)
  | and l r ihl ihr => exact (ihl printable.1).joined .and (ihr printable.2) rfl rfl
  | or l r ihl ihr => exact (ihl printable.1).joined .or (ihr printable.2) rfl rfl
  | quantified pattern count =>
      refine .of_term rfl fun spelled => ?_
      cases count with
      | none =>
          obtain ⟨_, _, _, rfl, kind, -, isOf, isName, rfl⟩ := spelled_quantifier printable spelled
          exact .all kind isOf isName
      | some count =>
          obtain ⟨number, _, _, rfl, kind, text, isOf, isName, rfl⟩ :=
            spelled_quantifier printable.1 spelled
          have counted := IsTerm.count (kind.trans (kindOf_natText count)) isOf isName
          rw [text, toList_natText, Nat.ofDigitChars_ten_toDigits] at counted
          exact counted

/-! ## What else is known of the lexemes -/

/-- The lexeme is no numeral of more digits than are read. -/
def IsShort (lexeme : String) : Prop :=
  kindOf lexeme = .number → lexeme.length ≤ Text.digitLimit

theorem IsShort.of_ne {lexeme : String} (other : kindOf lexeme ≠ .number) : IsShort lexeme :=
  fun isNumber => absurd isNumber other

theorem short_enclosed {t : Tree} (short : ∀ lexeme ∈ t.lexemes, IsShort lexeme) :
    ∀ lexeme ∈ t.enclosed t.lexemes, IsShort lexeme := by
  rw [Tree.enclosed]
  split
  · rw [List.forall_mem_cons, List.forall_mem_append, List.forall_mem_singleton]
    exact ⟨.of_ne (by decide), short, .of_ne (by decide)⟩
  · exact short

/-- Among the lexemes only the counts are numerals. -/
theorem short_of_mem_lexemes {t : Tree} (printable : t.Printable) :
    ∀ lexeme ∈ t.lexemes, IsShort lexeme := by
  have ofName {name : String} (isName : IsName name) : IsShort name :=
    .of_ne (by rw [kindOf_name isName]; decide)
  have joined {l r : Tree} {word : String} (left : ∀ lexeme ∈ l.lexemes, IsShort lexeme)
      (keyword : IsShort word) (right : ∀ lexeme ∈ r.lexemes, IsShort lexeme) :
      ∀ lexeme ∈ l.lexemes ++ word :: r.enclosed r.lexemes, IsShort lexeme := by
    rw [List.forall_mem_append, List.forall_mem_cons]
    exact ⟨left, keyword, short_enclosed right⟩
  induction t with
  | selection name => exact List.forall_mem_singleton.2 (ofName printable)
  | not t ih =>
      exact List.forall_mem_cons.2 ⟨.of_ne (by decide), short_enclosed (ih printable)⟩
  | and l r ihl ihr => exact joined (ihl printable.1) (.of_ne (by decide)) (ihr printable.2)
  | or l r ihl ihr => exact joined (ihl printable.1) (.of_ne (by decide)) (ihr printable.2)
  | quantified pattern count =>
      cases count with
      | none =>
          simp only [Tree.lexemes, List.forall_mem_cons]
          exact ⟨.of_ne (by decide), .of_ne (by decide), ofName printable, nofun⟩
      | some count =>
          simp only [Tree.lexemes, List.forall_mem_cons]
          exact ⟨fun _ => printable.2, .of_ne (by decide), ofName printable.1, nofun⟩

theorem shortNumerals_of_spelled {tokens : List Token} {lexemes : List String}
    (spelled : List.Forall₂ Spells tokens lexemes) (short : ∀ lexeme ∈ lexemes, IsShort lexeme) :
    ShortNumerals tokens := by
  intro token member isNumber
  obtain ⟨lexeme, member', kind, rfl⟩ := exists_of_forall₂ spelled.flip member
  exact short _ member' (kind.symm.trans isNumber)

theorem mentioned_keyword {lexeme : String} (other : kindOf lexeme ≠ .name)
    (notOf : kindOf lexeme ≠ .of) (behindOf : Bool) (rest : List String) :
    mentioned behindOf (lexeme :: rest) = mentioned false rest := by
  simp [mentioned, other, notOf]

/-- What the lexemes of a tree contribute to the names that a list of lexemes mentions. -/
def Mentions (lexemes names : List String) : Prop :=
  ∀ rest, mentioned false (lexemes ++ rest) = names ++ mentioned false rest

theorem Mentions.append {front back names others : List String} (first : Mentions front names)
    (second : Mentions back others) : Mentions (front ++ back) (names ++ others) := by
  intro rest
  rw [List.append_assoc, first, second, List.append_assoc]

theorem Mentions.keyword {lexeme : String} {lexemes names : List String}
    (other : kindOf lexeme ≠ .name) (notOf : kindOf lexeme ≠ .of) (behind : Mentions lexemes names) :
    Mentions (lexeme :: lexemes) names := by
  intro rest
  rw [List.cons_append, mentioned_keyword other notOf, behind]

theorem Mentions.enclosed {t : Tree} {names : List String} (inside : Mentions t.lexemes names) :
    Mentions (t.enclosed t.lexemes) names := by
  rw [Tree.enclosed]
  split
  · refine .keyword (by decide) (by decide) fun rest => ?_
    rw [List.append_assoc, inside, List.singleton_append,
      mentioned_keyword (by decide) (by decide)]
  · exact inside

/-- A pattern is not mentioned. -/
theorem Mentions.quantifier {first pattern : String} (other : kindOf first ≠ .name)
    (notOf : kindOf first ≠ .of) (isName : IsName pattern) :
    Mentions [first, "of", pattern] [] := by
  refine .keyword other notOf fun rest => ?_
  have isOf : kindOf "of" = .of := rfl
  simp [mentioned, isOf, kindOf_name isName]

theorem mentions_names {t : Tree} (printable : t.Printable) : Mentions t.lexemes t.names := by
  induction t with
  | selection name =>
      intro rest
      simp [Tree.lexemes, mentioned, kindOf_name printable, Tree.names, Tree.nodes]
  | not t ih => exact .keyword (by decide) (by decide) (ih printable).enclosed
  | and l r ihl ihr =>
      rw [Tree.names, Tree.nodes, List.cons_append, List.filterMap_cons, List.filterMap_append]
      exact (ihl printable.1).append
        (.keyword (by decide) (by decide) (ihr printable.2).enclosed)
  | or l r ihl ihr =>
      rw [Tree.names, Tree.nodes, List.cons_append, List.filterMap_cons, List.filterMap_append]
      exact (ihl printable.1).append
        (.keyword (by decide) (by decide) (ihr printable.2).enclosed)
  | quantified pattern count =>
      cases count with
      | none => exact .quantifier (by decide) (by decide) printable
      | some count =>
          exact .quantifier (by rw [kindOf_natText]; decide) (by rw [kindOf_natText]; decide)
            printable.1

/-! ## Printing and reading -/

/-- **A printed condition is read back.**  Whatever blanks its words are laid out with, a printed
tree is parsed as this very tree, and the names of its selections are those that the text mentions,
in the order of the text. -/
theorem parse_layout (t : Tree) (text : String) (printable : t.Printable)
    (layout : Layout t.lexemes text.toList) :
    parse text = .ok t ∧ t.names = mentioned false t.lexemes := by
  obtain ⟨tokens, scanned, spelled⟩ := scan_layout layout
  constructor
  · have short := shortNumerals_of_spelled spelled (short_of_mem_lexemes printable)
    have isExpression : IsExpression (tokens ++ closers 0) t := by
      rw [closers_zero, List.append_nil]
      exact (isRead printable).expression spelled
    rw [parse, scanned]
    exact ofTokens_of_isExpression short isExpression
  · simpa [mentioned] using (mentions_names printable []).symm

/-- A disjunction under `not`, with no blanks at its parentheses and with tabs and line breaks
between the words. -/
theorem parse_layout_nested :
    let t : Tree := .and (.not (.or (.selection "a") (.quantified "b*" (some 2)))) (.selection "C")
    let text := "not(a\tor 2 of b*)and\n C"
    t.Printable ∧ Layout t.lexemes text.toList ∧ parse text = .ok t ∧ t.names = ["a", "C"] := by
  intro t text
  have printable : t.Printable := by decide
  have layout : Layout t.lexemes text.toList := by
    have chars : text.toList = [] ++ ("not".toList ++ ([] ++ '(' :: ([] ++ ("a".toList ++
        (['\t'] ++ ("or".toList ++ ([' '] ++ ("2".toList ++ ([' '] ++ ("of".toList ++
        ([' '] ++ ("b*".toList ++ ([] ++ ')' :: ([] ++ ("and".toList ++
        (['\n', ' '] ++ ("C".toList ++ []))))))))))))))))) := by decide
    rw [chars]
    refine .word (by decide) (by decide) (by decide) ?_
    refine .paren (by decide) (by decide) ?_
    refine .word (by decide) (by decide) (by decide) ?_
    refine .word (by decide) (by decide) (by decide) ?_
    refine .word (by decide) (by decide) (by decide) ?_
    refine .word (by decide) (by decide) (by decide) ?_
    refine .word (by decide) (by decide) (by decide) ?_
    refine .paren (by decide) (by decide) ?_
    refine .word (by decide) (by decide) (by decide) ?_
    refine .word (by decide) (by decide) (by decide) ?_
    exact .blank (by decide)
  obtain ⟨parsed, names⟩ := parse_layout t text printable layout
  exact ⟨printable, layout, parsed, names.trans (by decide)⟩

end LogAlert.Condition
