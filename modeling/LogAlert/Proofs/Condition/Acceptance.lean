/-
# LogAlert.Proofs.Condition.Acceptance -- the parser accepts the grammar, and nothing else

`Reads P tokens rest` says that the tokens in front of `rest` are in `P` once their open groups are
closed, which may happen only where no token is left.  It is what a parser that returns `rest` has
done with the tokens: `term_sound` and its companions read it off a result, by induction on the
fuel, and `term_complete` and its companions give the result back, by induction on the derivation.
The fuel that `ofTokens` starts with covers two calls for each token.

Main statement: `ofTokens_grammar`.  Numerals of more digits than are read are excluded there, since
these are refused with an error of their own.
-/
import LogAlert.Proofs.Condition.Grammar
import LogAlert.Proofs.Outcome
import LogAlert.Proofs.Text.Digit

set_option autoImplicit false

namespace LogAlert.Condition

/-- The tokens in front of the rest are as stated, once the groups that are still open at the end of
all tokens are closed. -/
def Reads (P : List Token → Prop) (tokens rest : List Token) : Prop :=
  ∃ used count, tokens = used ++ rest ∧ P (used ++ closers count) ∧ (count = 0 ∨ rest = [])

namespace Reads

variable {P Q R : List Token → Prop} {tokens rest : List Token}

theorem exact (used : List Token) (holds : P used) : Reads P (used ++ rest) rest :=
  ⟨used, 0, rfl, by simpa using holds, .inl rfl⟩

theorem cons {token : Token} (reads : Reads P tokens rest) (follows : ∀ u, P u → Q (token :: u)) :
    Reads Q (token :: tokens) rest := by
  obtain ⟨used, count, rfl, holds, closed⟩ := reads
  exact ⟨token :: used, count, rfl, follows _ holds, closed⟩

theorem append {middle : List Token} (first : Reads P tokens middle)
    (second : Reads Q middle rest) (follows : ∀ u v, P u → Q v → R (u ++ v)) :
    Reads R tokens rest := by
  obtain ⟨used, count, rfl, holds, closed⟩ := first
  obtain ⟨used', count', rfl, holds', closed'⟩ := second
  have joined := follows _ _ holds holds'
  rcases closed with rfl | ended
  · exact ⟨used ++ used', count', by simp, by simpa using joined, closed'⟩
  · obtain ⟨rfl, rfl⟩ := List.append_eq_nil_iff.1 ended
    refine ⟨used, count + count', by simp, ?_, .inr rfl⟩
    simpa [closers, List.replicate_append_replicate] using joined

theorem suffix (reads : Reads P tokens rest) : rest <:+ tokens := by
  obtain ⟨used, _, rfl, _⟩ := reads
  exact List.suffix_append ..

end Reads

/-- Every numeral is short enough to be read. -/
def ShortNumerals (tokens : List Token) : Prop :=
  ∀ token ∈ tokens, token.kind = .number → token.text.length ≤ Text.digitLimit

theorem ShortNumerals.mono {tokens others : List Token} (short : ShortNumerals tokens)
    (part : others ⊆ tokens) : ShortNumerals others :=
  fun token member => short token (part member)

/-! ## The parts of a quantifier -/

theorem expect_eq_ok {kind : Kind} {tokens rest : List Token} (expected : expect kind tokens = .ok rest) :
    ∃ token, tokens = token :: rest ∧ token.kind = kind := by
  cases tokens with
  | nil => cases expected
  | cons token others =>
      rw [expect] at expected
      split at expected
      · cases expected
        exact ⟨token, rfl, ‹_›⟩
      · cases expected

theorem expect_cons {kind : Kind} {token : Token} (same : token.kind = kind) (rest : List Token) :
    expect kind (token :: rest) = .ok rest :=
  if_pos same

theorem pattern_eq_ok {tokens rest : List Token} {name : String}
    (named : pattern tokens = .ok (name, rest)) :
    ∃ token, tokens = token :: rest ∧ token.kind = .name ∧ token.text = name := by
  cases tokens with
  | nil => cases named
  | cons token others =>
      rw [pattern] at named
      split at named
      · cases named
        exact ⟨token, rfl, ‹_›, rfl⟩
      · cases named

theorem quantified_eq_ok {tokens rest : List Token} {name : String}
    (read : quantified tokens = .ok (name, rest)) :
    ∃ of token, tokens = of :: token :: rest ∧ of.kind = .of ∧ token.kind = .name ∧
      token.text = name := by
  obtain ⟨behind, expected, named⟩ := bind_eq_ok.1 read
  obtain ⟨of, rfl, isOf⟩ := expect_eq_ok expected
  obtain ⟨token, rfl, isName, same⟩ := pattern_eq_ok named
  exact ⟨of, token, rfl, isOf, isName, same⟩

theorem quantified_cons {of token : Token} (isOf : of.kind = .of) (isName : token.kind = .name)
    (rest : List Token) : quantified (of :: token :: rest) = .ok (token.text, rest) := by
  simp only [quantified, expect_cons isOf, ok_bind, pattern, isName, if_true]

theorem tokenNumber_of_short {text : String} (short : text.length ≤ Text.digitLimit) :
    tokenNumber text = .ok (Nat.ofDigitChars 10 text.toList 0) := by
  rw [tokenNumber, if_neg (Nat.not_lt.2 short), Text.ofDigits_eq_ofDigitChars]

theorem tokenNumber_eq_ok {text : String} {number : Nat} (read : tokenNumber text = .ok number) :
    number = Nat.ofDigitChars 10 text.toList 0 := by
  rw [tokenNumber, Text.ofDigits_eq_ofDigitChars] at read
  split at read
  · cases read
  · cases read
    rfl

/-! ## What the parser returns is in the grammar -/

/-- The tokens are what is joined to the left tree to give the tree. -/
def Extends (left tree : Tree) (tokens : List Token) : Prop :=
  ∃ joined, IsTail tokens joined ∧ tree = joinAll left joined

theorem Extends.cons {left tree right : Tree} {keyword : Token} {how : Joining}
    {tokens more : List Token} (kind : keyword.kind = how.kind) (isTerm : IsTerm tokens right)
    (extended : Extends (how.join left right) tree more) :
    Extends left tree (keyword :: (tokens ++ more)) := by
  obtain ⟨joined, isTail, rfl⟩ := extended
  exact ⟨(how, right) :: joined, .cons kind isTerm isTail, rfl⟩

/-- What a call with this fuel returns is in the grammar, for each of the three readers. -/
structure Sound (fuel : Nat) : Prop where
  term {tokens rest : List Token} {tree : Tree} :
    term fuel tokens = .ok (tree, rest) → Reads (IsTerm · tree) tokens rest
  expression {tokens rest : List Token} {tree : Tree} :
    expression fuel tokens = .ok (tree, rest) → Reads (IsExpression · tree) tokens rest
  joinedTo {tokens rest : List Token} {left tree : Tree} :
    joinedTo fuel left tokens = .ok (tree, rest) → Reads (Extends left tree) tokens rest

section

variable {fuel : Nat} {tokens rest : List Token} {tree left : Tree} {token : Token}

/-- A group is closed by the parenthesis behind it, or by the end of all tokens. -/
theorem group_sound (sound : Sound fuel) (kind : token.kind = .openParen)
    (read : term (fuel + 1) (token :: tokens) = .ok (tree, rest)) :
    Reads (IsTerm · tree) (token :: tokens) rest := by
  simp only [term, kind] at read
  obtain ⟨⟨inner, behind⟩, inside, read⟩ := bind_eq_ok.1 read
  have group := sound.expression inside
  cases behind with
  | nil =>
      cases read
      obtain ⟨used, count, same, isExpression, -⟩ := group
      refine ⟨token :: used, count + 1, by rw [same]; rfl, ?_, .inr rfl⟩
      rw [List.cons_append, closers_succ, ← List.append_assoc]
      exact .group kind isExpression rfl
  | cons closing others =>
      obtain ⟨_, closes, read⟩ := bind_eq_ok.1 read
      obtain ⟨_, same, closed⟩ := expect_eq_ok closes
      cases same
      cases read
      obtain ⟨used, count, rfl, isExpression, ended⟩ := group
      obtain rfl : count = 0 := ended.resolve_right (List.cons_ne_nil _ _)
      rw [closers_zero, List.append_nil] at isExpression
      refine ⟨token :: (used ++ [closing]), 0, by simp, ?_, .inl rfl⟩
      rw [closers_zero, List.append_nil]
      exact .group kind isExpression closed

theorem term_sound (sound : Sound fuel)
    (read : term (fuel + 1) tokens = .ok (tree, rest)) : Reads (IsTerm · tree) tokens rest := by
  cases tokens with
  | nil => cases read
  | cons token tokens =>
      cases kind : token.kind with
      | not =>
          simp only [term, kind] at read
          obtain ⟨⟨operand, behind⟩, inner, read⟩ := bind_eq_ok.1 read
          cases read
          exact (sound.term inner).cons fun _ isTerm => .not kind isTerm
      | openParen => exact group_sound sound kind read
      | all =>
          simp only [term, kind] at read
          obtain ⟨⟨name, behind⟩, quantifier, read⟩ := bind_eq_ok.1 read
          obtain ⟨of, named, rfl, isOf, isName, rfl⟩ := quantified_eq_ok quantifier
          cases read
          exact Reads.exact [token, of, named] (.all kind isOf isName)
      | number =>
          simp only [term, kind] at read
          obtain ⟨⟨name, behind⟩, quantifier, read⟩ := bind_eq_ok.1 read
          obtain ⟨count, number, read⟩ := bind_eq_ok.1 read
          obtain ⟨of, named, rfl, isOf, isName, rfl⟩ := quantified_eq_ok quantifier
          obtain rfl := tokenNumber_eq_ok number
          cases read
          exact Reads.exact [token, of, named] (.count kind isOf isName)
      | name =>
          simp only [term, kind] at read
          cases read
          exact Reads.exact [token] (.name kind)
      | closeParen | and | or | of =>
          simp only [term, kind] at read
          cases read

theorem expression_sound (sound : Sound fuel)
    (read : expression (fuel + 1) tokens = .ok (tree, rest)) :
    Reads (IsExpression · tree) tokens rest := by
  rw [expression] at read
  obtain ⟨⟨first, middle⟩, one, two⟩ := bind_eq_ok.1 read
  refine (sound.term one).append (sound.joinedTo two) fun u v isTerm extended => ?_
  obtain ⟨joined, isTail, rfl⟩ := extended
  exact .joined isTerm isTail

theorem joinedTo_sound (sound : Sound fuel)
    (read : joinedTo (fuel + 1) left tokens = .ok (tree, rest)) :
    Reads (Extends left tree) tokens rest := by
  have keyword (how : Joining) {token : Token} {tokens : List Token} (kind : token.kind = how.kind)
      (read : (term fuel tokens >>= fun next =>
        joinedTo fuel (how.join left next.1) next.2) = .ok (tree, rest)) :
      Reads (Extends left tree) (token :: tokens) rest := by
    obtain ⟨⟨right, middle⟩, one, two⟩ := bind_eq_ok.1 read
    have both := (sound.term one).append (sound.joinedTo two)
      (R := fun w => Extends left tree (token :: w)) fun u v isTerm extended =>
        extended.cons kind isTerm
    exact both.cons fun _ extended => extended
  cases tokens with
  | nil =>
      rw [joinedTo] at read
      cases read
      exact Reads.exact [] ⟨[], .nil, rfl⟩
  | cons token tokens =>
      rw [joinedTo] at read
      split at read
      · exact keyword .and ‹_› read
      · exact keyword .or ‹_› read
      · cases read
        exact Reads.exact [] ⟨[], .nil, rfl⟩

end

theorem sound (fuel : Nat) : Sound fuel := by
  induction fuel with
  | zero =>
      constructor
      · intro _ _ _ read
        rw [term] at read
        cases read
      · intro _ _ _ read
        rw [expression] at read
        cases read
      · intro _ _ _ _ read
        rw [joinedTo] at read
        cases read
  | succ fuel ih => exact ⟨term_sound ih, expression_sound ih, joinedTo_sound ih⟩

/-! ## What is in the grammar is returned -/

/-- The first of these tokens, if any, joins no term. -/
def Ends (rest : List Token) : Prop :=
  ∀ token others, rest = token :: others → token.kind ≠ .and ∧ token.kind ≠ .or

theorem Ends.cons {token : Token} (closes : token.kind = .closeParen) (others : List Token) :
    Ends (token :: others) := by
  rintro _ _ same
  cases same
  simp [closes]

theorem joinedTo_ends {fuel : Nat} {left : Tree} {rest : List Token} (ends : Ends rest) :
    joinedTo (fuel + 1) left rest = .ok (left, rest) := by
  cases rest with
  | nil => rw [joinedTo]
  | cons token others =>
      obtain ⟨notAnd, notOr⟩ := ends token others rfl
      rw [joinedTo]
      split <;> first | rfl | contradiction

theorem joinedTo_keyword {fuel : Nat} {left : Tree} {token : Token} {how : Joining}
    (kind : token.kind = how.kind) (rest : List Token) :
    joinedTo (fuel + 1) left (token :: rest) =
      (term fuel rest >>= fun next => joinedTo fuel (how.join left next.1) next.2) := by
  cases how <;> simp only [joinedTo, kind, Joining.kind, Joining.join]

section

variable {tokens used rest : List Token} {tree left : Tree} {count fuel : Nat}

/-- The parser reads these tokens as this term, wherever they stand: at the very end some of the
closing parentheses may be missing. -/
def ReadsTerm (tokens : List Token) (tree : Tree) : Prop :=
  ∀ {used rest : List Token} {count fuel : Nat}, tokens = used ++ closers count →
    count = 0 ∨ rest = [] → ShortNumerals used → 2 * used.length ≤ fuel →
    term fuel (used ++ rest) = .ok (tree, rest)

/-- The parser reads these tokens as this expression. -/
def ReadsExpression (tokens : List Token) (tree : Tree) : Prop :=
  ∀ {used rest : List Token} {count fuel : Nat}, tokens = used ++ closers count →
    count = 0 ∨ rest = [] → ShortNumerals used → Ends rest → 2 * used.length < fuel →
    expression fuel (used ++ rest) = .ok (tree, rest)

/-- The parser joins these tokens to any tree. -/
def ReadsTail (tokens : List Token) (joined : List (Joining × Tree)) : Prop :=
  ∀ {left : Tree} {used rest : List Token} {count fuel : Nat}, tokens = used ++ closers count →
    count = 0 ∨ rest = [] → ShortNumerals used → Ends rest → 2 * used.length < fuel →
    joinedTo fuel left (used ++ rest) = .ok (joinAll left joined, rest)

/-- A term and what is joined to it are read one after the other. -/
theorem reads_both {more : List Token} {joined : List (Joining × Tree)}
    (isTerm : IsTerm tokens tree) (isTail : IsTail more joined)
    (first : ReadsTerm tokens tree) (second : ReadsTail more joined)
    (same : tokens ++ more = used ++ closers count) (closed : count = 0 ∨ rest = [])
    (short : ShortNumerals used) (ends : Ends rest) (enough : 2 * used.length ≤ fuel) :
    ∃ middle, term fuel (used ++ rest) = .ok (tree, middle) ∧
      ∀ left, joinedTo fuel left middle = .ok (joinAll left joined, rest) := by
  obtain ⟨token, others, startsWith, ordinary⟩ := isTerm.head
  rcases split_tail (fun _ _ starts => isTail.head starts) same with
    ⟨behind, rfl, tail⟩ | ⟨rfl, alone⟩
  · have longer : 0 < tokens.length := by simp [startsWith]
    rw [List.length_append] at enough
    refine ⟨behind ++ rest, ?_, fun left => ?_⟩
    · rw [List.append_assoc]
      exact first (by simp) (.inl rfl) (short.mono (List.subset_append_left ..)) (by omega)
    · exact second tail closed (short.mono (List.subset_append_right ..)) ends (by omega)
  · obtain ⟨_, rfl, -⟩ := split_head ordinary (startsWith.symm.trans alone)
    refine ⟨rest, first alone closed short enough, fun left => ?_⟩
    rw [List.length_cons] at enough
    obtain ⟨fuel, rfl⟩ := Nat.exists_eq_add_one_of_ne_zero (show fuel ≠ 0 by omega)
    cases isTail with
    | nil => exact joinedTo_ends ends

theorem name_complete {name : Token} (isName : name.kind = .name) :
    ReadsTerm [name] (.selection name.text) := by
  intro used rest count fuel same _ _ enough
  obtain ⟨others, rfl, nothing⟩ := split_head (by simp [isName]) same
  obtain ⟨rfl, -⟩ := List.append_eq_nil_iff.1 nothing.symm
  rw [List.length_singleton] at enough
  obtain ⟨fuel, rfl⟩ := Nat.exists_eq_add_one_of_ne_zero (show fuel ≠ 0 by omega)
  simp only [List.singleton_append, term, isName]

theorem not_complete {keyword : Token} (isNot : keyword.kind = .not)
    (operand : ReadsTerm tokens tree) : ReadsTerm (keyword :: tokens) (.not tree) := by
  intro used rest count fuel same closed short enough
  obtain ⟨inner, rfl, behind⟩ := split_head (by simp [isNot]) same
  rw [List.length_cons] at enough
  obtain ⟨fuel, rfl⟩ := Nat.exists_eq_add_one_of_ne_zero (show fuel ≠ 0 by omega)
  have read := operand behind closed (short.mono (List.subset_cons_self ..))
    (show 2 * inner.length ≤ fuel by omega)
  simp only [List.cons_append, term, isNot, read]
  rfl

/-- A group is read up to its parenthesis if that is there, and up to the end if it is missing. -/
theorem group_complete {opening closing : Token} (opens : opening.kind = .openParen)
    (closes : closing.kind = .closeParen) (inside : ReadsExpression tokens tree) :
    ReadsTerm (opening :: (tokens ++ [closing])) tree := by
  intro used rest count fuel same closed short enough
  obtain ⟨inner, rfl, behind⟩ := split_head (by simp [opens]) same
  have shorter : ShortNumerals inner := short.mono (List.subset_cons_self ..)
  rw [List.length_cons] at enough
  obtain ⟨fuel, rfl⟩ := Nat.exists_eq_add_one_of_ne_zero (show fuel ≠ 0 by omega)
  simp only [List.cons_append, term, opens]
  cases count with
  | zero =>
      rw [closers_zero, List.append_nil] at behind
      subst behind
      rw [List.length_append, List.length_singleton] at enough
      have read := inside (show tokens = tokens ++ closers 0 by simp) (.inl rfl)
        (shorter.mono (List.subset_append_left ..)) (Ends.cons closes rest)
        (show 2 * tokens.length < fuel by omega)
      simp only [List.append_assoc, List.singleton_append, read, ok_bind, expect_cons closes]
      rfl
  | succ count =>
      obtain rfl : rest = [] := closed.resolve_left (Nat.succ_ne_zero _)
      rw [closers_succ, ← List.append_assoc] at behind
      rw [inside (List.append_inj' behind rfl).1 (.inr rfl) shorter nofun (by omega)]
      rfl

/-- A quantifier ends with a name, so no closing parenthesis behind it belongs to it. -/
theorem quantifier_complete {keyword of pattern : Token} (isName : pattern.kind = .name)
    (read : ShortNumerals [keyword, of, pattern] → ∀ fuel rest,
      term (fuel + 1) (keyword :: of :: pattern :: rest) = .ok (tree, rest)) :
    ReadsTerm [keyword, of, pattern] tree := by
  intro used rest count fuel same _ short enough
  obtain rfl : count = 0 :=
    split_last (show pattern.kind ≠ .closeParen by simp [isName]) (show [keyword, of] ++ _ = _ from same)
  rw [closers_zero, List.append_nil] at same
  subst same
  simp only [List.length_cons] at enough
  obtain ⟨fuel, rfl⟩ := Nat.exists_eq_add_one_of_ne_zero (show fuel ≠ 0 by omega)
  exact read short fuel rest

theorem all_complete {keyword of pattern : Token} (isAll : keyword.kind = .all)
    (isOf : of.kind = .of) (isName : pattern.kind = .name) :
    ReadsTerm [keyword, of, pattern] (.quantified pattern.text none) :=
  quantifier_complete isName fun _ fuel rest => by
    simp only [term, isAll, quantified_cons isOf isName, ok_bind]
    rfl

theorem count_complete {number of pattern : Token} (isNumber : number.kind = .number)
    (isOf : of.kind = .of) (isName : pattern.kind = .name) :
    ReadsTerm [number, of, pattern]
      (.quantified pattern.text (some (Nat.ofDigitChars 10 number.text.toList 0))) :=
  quantifier_complete isName fun short fuel rest => by
    have count := tokenNumber_of_short (short number List.mem_cons_self isNumber)
    simp only [term, isNumber, quantified_cons isOf isName, count, ok_bind]
    rfl

theorem joined_complete {more : List Token} {joined : List (Joining × Tree)}
    (isTerm : IsTerm tokens tree) (isTail : IsTail more joined)
    (first : ReadsTerm tokens tree) (second : ReadsTail more joined) :
    ReadsExpression (tokens ++ more) (joinAll tree joined) := by
  intro used rest count fuel same closed short ends enough
  obtain ⟨fuel, rfl⟩ := Nat.exists_eq_add_one_of_ne_zero (show fuel ≠ 0 by omega)
  obtain ⟨middle, one, two⟩ :=
    reads_both isTerm isTail first second same closed short ends (Nat.le_of_lt_succ enough)
  simp only [expression, one, ok_bind, two]

theorem nil_complete : ReadsTail [] [] := by
  intro left used rest count fuel same _ _ ends enough
  obtain ⟨rfl, -⟩ := List.append_eq_nil_iff.1 same.symm
  obtain ⟨fuel, rfl⟩ := Nat.exists_eq_add_one_of_ne_zero (show fuel ≠ 0 by omega)
  exact joinedTo_ends ends

theorem cons_complete {keyword : Token} {how : Joining} {more : List Token}
    {joined : List (Joining × Tree)} (kind : keyword.kind = how.kind)
    (isTerm : IsTerm tokens tree) (isTail : IsTail more joined)
    (first : ReadsTerm tokens tree) (second : ReadsTail more joined) :
    ReadsTail (keyword :: (tokens ++ more)) ((how, tree) :: joined) := by
  intro left used rest count fuel same closed short ends enough
  obtain ⟨inner, rfl, behind⟩ := split_head (by rw [kind]; cases how <;> simp [Joining.kind]) same
  rw [List.length_cons] at enough
  obtain ⟨fuel, rfl⟩ := Nat.exists_eq_add_one_of_ne_zero (show fuel ≠ 0 by omega)
  obtain ⟨middle, one, two⟩ := reads_both isTerm isTail first second behind closed
    (short.mono (List.subset_cons_self ..)) ends (show 2 * inner.length ≤ fuel by omega)
  simp only [List.cons_append, joinedTo_keyword kind, one, ok_bind, two]
  rfl

end

mutual

theorem term_complete {tokens : List Token} {tree : Tree} :
    IsTerm tokens tree → ReadsTerm tokens tree
  | .name isName => name_complete isName
  | .not isNot isTerm => not_complete isNot (term_complete isTerm)
  | .group opens isExpression closes =>
    group_complete opens closes (expression_complete isExpression)
  | .all isAll isOf isName => all_complete isAll isOf isName
  | .count isNumber isOf isName => count_complete isNumber isOf isName

theorem expression_complete {tokens : List Token} {tree : Tree} :
    IsExpression tokens tree → ReadsExpression tokens tree
  | .joined isTerm isTail =>
    joined_complete isTerm isTail (term_complete isTerm) (tail_complete isTail)

theorem tail_complete {tokens : List Token} {joined : List (Joining × Tree)} :
    IsTail tokens joined → ReadsTail tokens joined
  | .nil => nil_complete
  | .cons kind isTerm isTail =>
    cons_complete kind isTerm isTail (term_complete isTerm) (tail_complete isTail)

end

/-! ## All other tokens are errors of syntax -/

/-- With short numerals, a call with this fuel fails with an error of syntax if it fails. -/
structure FailsWell (fuel : Nat) : Prop where
  term {tokens : List Token} {error : ParseError} : ShortNumerals tokens →
    term fuel tokens = .error error → ∃ e, error = .syntaxError e
  expression {tokens : List Token} {error : ParseError} : ShortNumerals tokens →
    expression fuel tokens = .error error → ∃ e, error = .syntaxError e
  joinedTo {tokens : List Token} {left : Tree} {error : ParseError} : ShortNumerals tokens →
    joinedTo fuel left tokens = .error error → ∃ e, error = .syntaxError e

theorem expect_error {kind : Kind} {tokens : List Token} {error : ParseError}
    (failed : expect kind tokens = .error error) : ∃ e, error = .syntaxError e := by
  cases tokens with
  | nil =>
      cases failed
      exact ⟨_, rfl⟩
  | cons token rest =>
      rw [expect] at failed
      split at failed <;> cases failed
      exact ⟨_, rfl⟩

theorem pattern_error {tokens : List Token} {error : ParseError}
    (failed : pattern tokens = .error error) : ∃ e, error = .syntaxError e := by
  cases tokens with
  | nil =>
      cases failed
      exact ⟨_, rfl⟩
  | cons token rest =>
      rw [pattern] at failed
      split at failed <;> cases failed
      exact ⟨_, rfl⟩

theorem quantified_error {tokens : List Token} {error : ParseError}
    (failed : quantified tokens = .error error) : ∃ e, error = .syntaxError e := by
  rcases bind_eq_error.1 failed with missing | ⟨rest, _, invalid⟩
  · exact expect_error missing
  · exact pattern_error invalid

section

variable {fuel : Nat} {tokens rest : List Token} {tree left : Tree} {error : ParseError}

theorem ShortNumerals.behind (short : ShortNumerals tokens)
    (read : term fuel tokens = .ok (tree, rest)) : ShortNumerals rest :=
  short.mono ((sound fuel).term read).suffix.subset

theorem term_fails (fails : FailsWell fuel) (short : ShortNumerals tokens)
    (failed : term (fuel + 1) tokens = .error error) : ∃ e, error = .syntaxError e := by
  cases tokens with
  | nil =>
      cases failed
      exact ⟨_, rfl⟩
  | cons token tokens =>
      have shorter : ShortNumerals tokens := short.mono (List.subset_cons_self ..)
      cases kind : token.kind with
      | not =>
          simp only [term, kind] at failed
          rcases bind_eq_error.1 failed with failed | ⟨_, _, impossible⟩
          · exact fails.term shorter failed
          · cases impossible
      | openParen =>
          simp only [term, kind] at failed
          rcases bind_eq_error.1 failed with failed | ⟨⟨inner, behind⟩, _, failed⟩
          · exact fails.expression shorter failed
          · cases behind with
            | nil => cases failed
            | cons closing others =>
                rcases bind_eq_error.1 failed with missing | ⟨_, _, impossible⟩
                · exact expect_error missing
                · cases impossible
      | all =>
          simp only [term, kind] at failed
          rcases bind_eq_error.1 failed with failed | ⟨_, _, impossible⟩
          · exact quantified_error failed
          · cases impossible
      | number =>
          simp only [term, kind] at failed
          rcases bind_eq_error.1 failed with failed | ⟨_, _, failed⟩
          · exact quantified_error failed
          · rw [tokenNumber_of_short (short token List.mem_cons_self kind)] at failed
            cases failed
      | name =>
          simp only [term, kind] at failed
          cases failed
      | closeParen | and | or | of =>
          simp only [term, kind] at failed
          cases failed
          exact ⟨_, rfl⟩

theorem expression_fails (fails : FailsWell fuel) (short : ShortNumerals tokens)
    (failed : expression (fuel + 1) tokens = .error error) : ∃ e, error = .syntaxError e := by
  rw [expression] at failed
  rcases bind_eq_error.1 failed with failed | ⟨⟨first, behind⟩, read, failed⟩
  · exact fails.term short failed
  · exact fails.joinedTo (short.behind read) failed

theorem joinedTo_fails (fails : FailsWell fuel) (short : ShortNumerals tokens)
    (failed : joinedTo (fuel + 1) left tokens = .error error) : ∃ e, error = .syntaxError e := by
  have keyword (how : Joining) {tokens : List Token} (short : ShortNumerals tokens)
      (failed : (term fuel tokens >>= fun next =>
        joinedTo fuel (how.join left next.1) next.2) = .error error) :
      ∃ e, error = .syntaxError e := by
    rcases bind_eq_error.1 failed with failed | ⟨⟨right, behind⟩, read, failed⟩
    · exact fails.term short failed
    · exact fails.joinedTo (short.behind read) failed
  cases tokens with
  | nil =>
      rw [joinedTo] at failed
      cases failed
  | cons token tokens =>
      have shorter : ShortNumerals tokens := short.mono (List.subset_cons_self ..)
      rw [joinedTo] at failed
      split at failed
      · exact keyword .and shorter failed
      · exact keyword .or shorter failed
      · cases failed

end

theorem failsWell (fuel : Nat) : FailsWell fuel := by
  induction fuel with
  | zero =>
      constructor
      · intro _ _ _ failed
        rw [term] at failed
        cases failed
        exact ⟨_, rfl⟩
      · intro _ _ _ failed
        rw [expression] at failed
        cases failed
        exact ⟨_, rfl⟩
      · intro _ _ _ _ failed
        rw [joinedTo] at failed
        cases failed
        exact ⟨_, rfl⟩
  | succ fuel ih => exact ⟨term_fails ih, expression_fails ih, joinedTo_fails ih⟩

/-! ## The parser -/

theorem IsExpression.ne_nil {tokens : List Token} {tree : Tree}
    (isExpression : IsExpression tokens tree) {count : Nat} : tokens ≠ closers count := by
  rintro rfl
  generalize same : closers count = tokens at isExpression
  cases isExpression with
  | joined isTerm _ =>
      obtain ⟨token, rest, rfl, ordinary⟩ := isTerm.head
      have member : token ∈ closers count := by simp [same]
      exact ordinary (kind_of_mem_closers member)

theorem isExpression_of_ofTokens {tokens : List Token} {tree : Tree}
    (parsed : ofTokens tokens = .ok tree) :
    ∃ count, IsExpression (tokens ++ closers count) tree := by
  rw [ofTokens] at parsed
  split at parsed
  · cases parsed
  · obtain ⟨⟨whole, rest⟩, read, parsed⟩ := bind_eq_ok.1 parsed
    cases rest with
    | nil =>
        cases parsed
        obtain ⟨used, count, rfl, isExpression, -⟩ := (sound _).expression read
        exact ⟨count, by simpa using isExpression⟩
    | cons token rest => cases parsed

theorem ofTokens_of_isExpression {tokens : List Token} {tree : Tree} {count : Nat}
    (short : ShortNumerals tokens) (isExpression : IsExpression (tokens ++ closers count) tree) :
    ofTokens tokens = .ok tree := by
  have nonempty : tokens ≠ [] := by
    rintro rfl
    exact isExpression.ne_nil (List.nil_append _)
  have read := expression_complete isExpression rfl (.inr rfl) short nofun
    (show 2 * tokens.length < 3 * tokens.length + 3 by omega)
  rw [List.append_nil] at read
  simp only [ofTokens, List.isEmpty_iff, if_neg nonempty, read, ok_bind]
  rfl

theorem ofTokens_error {tokens : List Token} {error : ParseError} (short : ShortNumerals tokens)
    (failed : ofTokens tokens = .error error) : ∃ e, error = .syntaxError e := by
  rw [ofTokens] at failed
  split at failed
  · cases failed
    exact ⟨_, rfl⟩
  · rcases bind_eq_error.1 failed with failed | ⟨⟨whole, rest⟩, _, failed⟩
    · exact (failsWell _).expression short failed
    · cases rest with
      | nil => cases failed
      | cons token rest =>
          cases failed
          exact ⟨_, rfl⟩

/-- **The parser accepts exactly its grammar.**  It returns a tree if and only if the tokens,
followed by some closing parentheses, are an expression with this tree; there is at most one such
tree, and where there is none the result is an error of syntax. -/
theorem ofTokens_grammar (tokens : List Token)
    (short : ∀ token ∈ tokens, token.kind = .number → token.text.length ≤ Text.digitLimit) :
    (∀ tree, ofTokens tokens = .ok tree ↔
        ∃ count, IsExpression (tokens ++ closers count) tree) ∧
      (∀ tree other count count', IsExpression (tokens ++ closers count) tree →
        IsExpression (tokens ++ closers count') other → tree = other) ∧
      ((¬ ∃ tree count, IsExpression (tokens ++ closers count) tree) →
        ∃ e, ofTokens tokens = .error (.syntaxError e)) := by
  refine ⟨fun tree => ⟨isExpression_of_ofTokens, ?_⟩, ?_, ?_⟩
  · rintro ⟨count, isExpression⟩
    exact ofTokens_of_isExpression short isExpression
  · intro tree other count count' one two
    have parsed := ofTokens_of_isExpression short one
    rw [ofTokens_of_isExpression short two] at parsed
    exact (Except.ok.inj parsed).symm
  · intro none
    cases parsed : ofTokens tokens with
    | ok tree => exact absurd ⟨tree, isExpression_of_ofTokens parsed⟩ none
    | error error =>
        obtain ⟨e, rfl⟩ := ofTokens_error short parsed
        exact ⟨e, rfl⟩

/-- Of `2 of x and ( y`, with its group left open: there is a tree, the only one. -/
theorem ofTokens_grammar_open_group :
    let tokens : List Token := [⟨.number, "2", 0⟩, ⟨.of, "of", 2⟩, ⟨.name, "x", 5⟩, ⟨.and, "and", 7⟩,
      ⟨.openParen, "(", 11⟩, ⟨.name, "y", 13⟩]
    (∀ token ∈ tokens, token.kind = .number → token.text.length ≤ Text.digitLimit) ∧
      ∃ count, IsExpression (tokens ++ closers count)
        (.and (.quantified "x" (some 2)) (.selection "y")) := by
  intro tokens
  have short : ∀ token ∈ tokens, token.kind = .number → token.text.length ≤ Text.digitLimit := by
    decide
  exact ⟨short, ((ofTokens_grammar tokens short).1 _).1 (by decide)⟩

end LogAlert.Condition
