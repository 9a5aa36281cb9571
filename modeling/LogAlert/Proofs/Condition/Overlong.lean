/-
# LogAlert.Proofs.Condition.Overlong -- numerals that stop the parser

A numeral with too many digits is read neither as a number nor as an error of syntax: the parser
stops there with an error of another kind.  When that happens is said by the grammar alone
(`Overruns`): some beginning of the tokens is an expression once its open groups are closed, and this
beginning has such a numeral.  What stands behind it is never looked at; and a numeral that stands
where no number can is an error of syntax, however long it is.

* `overruns_of_error`: a parser that stops there has read such a beginning, by induction on the fuel
  (`stumbles`).
* `error_of_overruns`: on such a beginning it does stop, by induction on the derivation
  (`expression_stuck`).  The parts in front of the numeral are short, so they are read as
  `expression_complete` and its companions say.

Main statement: `ofTokens_overlong_iff`.
-/
import LogAlert.Proofs.Condition.Acceptance

set_option autoImplicit false

namespace LogAlert.Condition

/-- Some beginning of the tokens is as stated, once its open groups are closed, and one of its
numerals is too long to be read. -/
def Overruns (P : List Token → Prop) (tokens : List Token) : Prop :=
  ∃ used rest count, tokens = used ++ rest ∧ P (used ++ closers count) ∧ ¬ ShortNumerals used

namespace Overruns

variable {P Q : List Token → Prop} {tokens rest : List Token} {token : Token}

theorem imp (overruns : Overruns P tokens) (follows : ∀ u, P u → Q u) : Overruns Q tokens := by
  obtain ⟨used, rest, count, same, holds, long⟩ := overruns
  exact ⟨used, rest, count, same, follows _ holds, long⟩

/-- Tokens in front, which were read as they stand. -/
theorem behind (overruns : Overruns P tokens) (front : List Token)
    (follows : ∀ u, P u → Q (front ++ u)) : Overruns Q (front ++ tokens) := by
  obtain ⟨used, rest, count, rfl, holds, long⟩ := overruns
  refine ⟨front ++ used, rest, count, by rw [List.append_assoc], ?_, fun short => long ?_⟩
  · rw [List.append_assoc]
    exact follows _ holds
  · exact short.mono (List.subset_append_right ..)

/-- A group that is still open is closed behind its content. -/
theorem group (overruns : Overruns P tokens) {closing : Token} (closes : closing ∈ closers 1)
    (follows : ∀ u, P u → Q (token :: (u ++ [closing]))) : Overruns Q (token :: tokens) := by
  obtain rfl := List.eq_of_mem_replicate closes
  obtain ⟨used, rest, count, rfl, holds, long⟩ := overruns
  refine ⟨token :: used, rest, count + 1, rfl, ?_, fun short => long ?_⟩
  · rw [List.cons_append, closers_succ, ← List.append_assoc]
    exact follows _ holds
  · exact short.mono (List.subset_cons_self ..)

end Overruns

/-! ## Where the parser stops, such a numeral has been read -/

theorem quantified_ne_overlong {tokens : List Token} {digits : Nat} :
    quantified tokens ≠ .error (.overlongNumber digits) := by
  intro failed
  obtain ⟨e, same⟩ := quantified_error failed
  cases same

theorem expect_ne_overlong {kind : Kind} {tokens : List Token} {digits : Nat} :
    expect kind tokens ≠ .error (.overlongNumber digits) := by
  intro failed
  obtain ⟨e, same⟩ := expect_error failed
  cases same

theorem joinedTo_nil_ne_overlong {fuel : Nat} {left : Tree} {digits : Nat} :
    joinedTo fuel left [] ≠ .error (.overlongNumber digits) := by
  cases fuel <;> simp [joinedTo]

theorem tokenNumber_eq_error {text : String} {error : ParseError}
    (failed : tokenNumber text = .error error) : Text.digitLimit < text.length := by
  rw [tokenNumber] at failed
  split at failed
  · assumption
  · cases failed

/-- A call with this fuel that stops at a numeral has read it, for each of the three readers. -/
structure Stumbles (fuel : Nat) : Prop where
  term {tokens : List Token} {digits : Nat} :
    term fuel tokens = .error (.overlongNumber digits) →
      ∃ tree, Overruns (IsTerm · tree) tokens
  expression {tokens : List Token} {digits : Nat} :
    expression fuel tokens = .error (.overlongNumber digits) →
      ∃ tree, Overruns (IsExpression · tree) tokens
  joinedTo {tokens : List Token} {left : Tree} {digits : Nat} :
    joinedTo fuel left tokens = .error (.overlongNumber digits) →
      ∃ joined, Overruns (IsTail · joined) tokens

section

variable {fuel digits : Nat} {tokens rest : List Token} {tree left : Tree}

/-- What was read in front of a reader that fails was read as it stands: a group that is closed by
the end of all tokens has nothing behind it. -/
theorem Reads.front {P : List Token → Prop} (reads : Reads P tokens rest) (nonempty : rest ≠ []) :
    ∃ used, tokens = used ++ rest ∧ P used := by
  obtain ⟨used, count, same, holds, closed⟩ := reads
  obtain rfl := closed.resolve_right nonempty
  exact ⟨used, same, by simpa using holds⟩

theorem term_stumbles (stumbles : Stumbles fuel)
    (failed : term (fuel + 1) tokens = .error (.overlongNumber digits)) :
    ∃ tree, Overruns (IsTerm · tree) tokens := by
  cases tokens with
  | nil => cases failed
  | cons token tokens =>
      cases kind : token.kind with
      | not =>
          simp only [term, kind] at failed
          rcases bind_eq_error.1 failed with failed | ⟨_, _, impossible⟩
          · obtain ⟨tree, overruns⟩ := stumbles.term failed
            exact ⟨.not tree, overruns.behind [token] fun _ isTerm => .not kind isTerm⟩
          · cases impossible
      | openParen =>
          simp only [term, kind] at failed
          rcases bind_eq_error.1 failed with failed | ⟨⟨inner, behind⟩, _, failed⟩
          · obtain ⟨tree, overruns⟩ := stumbles.expression failed
            exact ⟨tree, overruns.group List.mem_cons_self fun _ isExpression =>
              .group kind isExpression rfl⟩
          · cases behind with
            | nil => cases failed
            | cons closing others =>
                rcases bind_eq_error.1 failed with missing | ⟨_, _, impossible⟩
                · exact absurd missing expect_ne_overlong
                · cases impossible
      | all =>
          simp only [term, kind] at failed
          rcases bind_eq_error.1 failed with failed | ⟨_, _, impossible⟩
          · exact absurd failed quantified_ne_overlong
          · cases impossible
      | number =>
          simp only [term, kind] at failed
          rcases bind_eq_error.1 failed with failed | ⟨⟨name, behind⟩, read, failed⟩
          · exact absurd failed quantified_ne_overlong
          · rcases bind_eq_error.1 failed with overlong | ⟨_, _, impossible⟩
            · obtain ⟨of, named, rfl, isOf, isName, rfl⟩ := quantified_eq_ok read
              refine ⟨_, [token, of, named], behind, 0, rfl, .count kind isOf isName, fun short => ?_⟩
              have limit := short token List.mem_cons_self kind
              exact absurd (tokenNumber_eq_error overlong) (Nat.not_lt.2 limit)
            · cases impossible
      | name | closeParen | and | or | of =>
          simp only [term, kind] at failed
          cases failed

theorem expression_stumbles (stumbles : Stumbles fuel)
    (failed : expression (fuel + 1) tokens = .error (.overlongNumber digits)) :
    ∃ tree, Overruns (IsExpression · tree) tokens := by
  rw [expression] at failed
  rcases bind_eq_error.1 failed with failed | ⟨⟨first, behind⟩, read, failed⟩
  · obtain ⟨tree, overruns⟩ := stumbles.term failed
    exact ⟨tree, overruns.imp fun _ isTerm => isTerm.expression⟩
  · obtain ⟨joined, overruns⟩ := stumbles.joinedTo failed
    have nonempty : behind ≠ [] := by
      rintro rfl
      exact joinedTo_nil_ne_overlong failed
    obtain ⟨used, rfl, isTerm⟩ := ((sound fuel).term read).front nonempty
    exact ⟨_, overruns.behind used fun _ isTail => .joined isTerm isTail⟩

theorem joinedTo_stumbles (stumbles : Stumbles fuel)
    (failed : joinedTo (fuel + 1) left tokens = .error (.overlongNumber digits)) :
    ∃ joined, Overruns (IsTail · joined) tokens := by
  have keyword (how : Joining) {token : Token} {tokens : List Token} (kind : token.kind = how.kind)
      (failed : (term fuel tokens >>= fun next =>
        joinedTo fuel (how.join left next.1) next.2) = .error (.overlongNumber digits)) :
      ∃ joined, Overruns (IsTail · joined) (token :: tokens) := by
    rcases bind_eq_error.1 failed with failed | ⟨⟨right, behind⟩, read, failed⟩
    · obtain ⟨tree, overruns⟩ := stumbles.term failed
      refine ⟨[(how, tree)], overruns.behind [token] fun u isTerm => ?_⟩
      simpa using IsTail.cons kind isTerm .nil
    · obtain ⟨joined, overruns⟩ := stumbles.joinedTo failed
      have nonempty : behind ≠ [] := by
        rintro rfl
        exact joinedTo_nil_ne_overlong failed
      obtain ⟨used, rfl, isTerm⟩ := ((sound fuel).term read).front nonempty
      exact ⟨(how, right) :: joined, overruns.behind (token :: used) fun _ isTail =>
        .cons kind isTerm isTail⟩
  cases tokens with
  | nil =>
      rw [joinedTo] at failed
      cases failed
  | cons token tokens =>
      rw [joinedTo] at failed
      split at failed
      · exact keyword .and ‹_› failed
      · exact keyword .or ‹_› failed
      · cases failed

end

theorem stumbles (fuel : Nat) : Stumbles fuel := by
  induction fuel with
  | zero =>
      constructor
      · intro _ _ failed
        rw [term] at failed
        cases failed
      · intro _ _ failed
        rw [expression] at failed
        cases failed
      · intro _ _ _ failed
        rw [joinedTo] at failed
        cases failed
  | succ fuel ih => exact ⟨term_stumbles ih, expression_stumbles ih, joinedTo_stumbles ih⟩

theorem overruns_of_error {tokens : List Token} {digits : Nat}
    (failed : ofTokens tokens = .error (.overlongNumber digits)) :
    ∃ tree, Overruns (IsExpression · tree) tokens := by
  rw [ofTokens] at failed
  split at failed
  · cases failed
  · rcases bind_eq_error.1 failed with failed | ⟨⟨tree, rest⟩, _, failed⟩
    · exact (stumbles _).expression failed
    · cases rest <;> cases failed

/-! ## On such a numeral the parser stops -/

/-- The parser stops at a numeral that it does not read. -/
def Stuck {α : Type} (result : Except ParseError α) : Prop :=
  ∃ digits, result = .error (.overlongNumber digits)

theorem Stuck.bind {α β : Type} {first : Except ParseError α} (stuck : Stuck first)
    (second : α → Except ParseError β) : Stuck (first >>= second) := by
  obtain ⟨digits, rfl⟩ := stuck
  exact ⟨digits, rfl⟩

section

variable {tokens more used : List Token} {tree : Tree} {joined : List (Joining × Tree)}

/-- The parser stops within these tokens if a numeral of them is too long, whatever is behind. -/
def TermStuck (tokens : List Token) : Prop :=
  ∀ {used rest : List Token} {count fuel : Nat}, tokens = used ++ closers count →
    ¬ ShortNumerals used → 2 * used.length ≤ fuel → Stuck (term fuel (used ++ rest))

@[inherit_doc TermStuck]
def ExpressionStuck (tokens : List Token) : Prop :=
  ∀ {used rest : List Token} {count fuel : Nat}, tokens = used ++ closers count →
    ¬ ShortNumerals used → 2 * used.length < fuel → Stuck (expression fuel (used ++ rest))

@[inherit_doc TermStuck]
def TailStuck (tokens : List Token) : Prop :=
  ∀ {left : Tree} {used rest : List Token} {count fuel : Nat}, tokens = used ++ closers count →
    ¬ ShortNumerals used → 2 * used.length < fuel → Stuck (joinedTo fuel left (used ++ rest))

theorem shortNumerals_nil : ShortNumerals [] := fun _ member => absurd member List.not_mem_nil

/-- A first token that is no numeral can be left out. -/
theorem long_tail {token : Token} (notNumber : token.kind ≠ .number)
    (long : ¬ ShortNumerals (token :: tokens)) : ¬ ShortNumerals tokens := by
  intro short
  refine long fun other member isNumber => ?_
  rcases List.mem_cons.1 member with rfl | behind
  · exact absurd isNumber notNumber
  · exact short other behind isNumber

theorem long_append (long : ¬ ShortNumerals (tokens ++ more)) (short : ShortNumerals tokens) :
    ¬ ShortNumerals more := by
  intro shortMore
  refine long fun token member isNumber => ?_
  rcases List.mem_append.1 member with front | behind
  · exact short token front isNumber
  · exact shortMore token behind isNumber

/-- Of a term and what is joined to it, one part stops the parser. -/
theorem stuck_both (isTerm : IsTerm tokens tree) (isTail : IsTail more joined)
    (first : TermStuck tokens) (second : TailStuck more) {rest : List Token} {count fuel : Nat}
    (same : tokens ++ more = used ++ closers count) (long : ¬ ShortNumerals used)
    (enough : 2 * used.length ≤ fuel) (next : Tree → Tree) :
    Stuck (term fuel (used ++ rest) >>= fun read => joinedTo fuel (next read.1) read.2) := by
  obtain ⟨token, others, startsWith, -⟩ := isTerm.head
  rcases split_tail (fun _ _ starts => isTail.head starts) same with
    ⟨behind, rfl, tail⟩ | ⟨rfl, alone⟩
  · rw [List.length_append] at enough
    by_cases short : ShortNumerals tokens
    · have longer : 0 < tokens.length := by simp [startsWith]
      have read : term fuel (tokens ++ (behind ++ rest)) = .ok (tree, behind ++ rest) :=
        term_complete isTerm (show tokens = tokens ++ closers 0 by simp) (.inl rfl) short
          (by omega)
      rw [List.append_assoc, read, ok_bind]
      exact second tail (long_append long short) (by omega)
    · rw [List.append_assoc]
      exact (first (show tokens = tokens ++ closers 0 by simp) short (by omega)).bind _
  · exact (first alone long enough).bind _

theorem name_stuck {name : Token} (isName : name.kind = .name) : TermStuck [name] := by
  intro used rest count fuel same long _
  obtain ⟨others, rfl, nothing⟩ := split_head (by simp [isName]) same
  obtain ⟨rfl, -⟩ := List.append_eq_nil_iff.1 nothing.symm
  exact absurd shortNumerals_nil (long_tail (by simp [isName]) long)

theorem not_stuck {keyword : Token} (isNot : keyword.kind = .not) (operand : TermStuck tokens) :
    TermStuck (keyword :: tokens) := by
  intro used rest count fuel same long enough
  obtain ⟨inner, rfl, behind⟩ := split_head (by simp [isNot]) same
  rw [List.length_cons] at enough
  obtain ⟨fuel, rfl⟩ := Nat.exists_eq_add_one_of_ne_zero (show fuel ≠ 0 by omega)
  simp only [List.cons_append, term, isNot]
  exact (operand behind (long_tail (by simp [isNot]) long) (by omega)).bind _

theorem group_stuck {opening closing : Token} (opens : opening.kind = .openParen)
    (closes : closing.kind = .closeParen) (inside : ExpressionStuck tokens) :
    TermStuck (opening :: (tokens ++ [closing])) := by
  intro used rest count fuel same long enough
  obtain ⟨inner, rfl, behind⟩ := split_head (by simp [opens]) same
  have longer := long_tail (by simp [opens]) long
  rw [List.length_cons] at enough
  obtain ⟨fuel, rfl⟩ := Nat.exists_eq_add_one_of_ne_zero (show fuel ≠ 0 by omega)
  simp only [List.cons_append, term, opens]
  cases count with
  | zero =>
      rw [closers_zero, List.append_nil] at behind
      subst behind
      rw [List.length_append, List.length_singleton] at enough
      have longInside : ¬ ShortNumerals tokens := fun short =>
        long_append longer short fun token member isNumber => by
          rw [List.mem_singleton.1 member, closes] at isNumber
          cases isNumber
      rw [List.append_assoc]
      exact (inside (show tokens = tokens ++ closers 0 by simp) longInside (by omega)).bind _
  | succ count =>
      rw [closers_succ, ← List.append_assoc] at behind
      exact (inside (List.append_inj' behind rfl).1 longer (by omega)).bind _

/-- A quantifier ends with a name, so no closing parenthesis behind it belongs to it. -/
theorem quantifier_stuck {keyword of pattern : Token} (isOf : of.kind = .of)
    (isName : pattern.kind = .name)
    (read : ¬ ShortNumerals [keyword] → ∀ fuel rest,
      Stuck (term (fuel + 1) (keyword :: of :: pattern :: rest))) :
    TermStuck [keyword, of, pattern] := by
  intro used rest count fuel same long enough
  obtain rfl : count = 0 :=
    split_last (show pattern.kind ≠ .closeParen by simp [isName]) (show [keyword, of] ++ _ = _ from same)
  rw [closers_zero, List.append_nil] at same
  subst same
  simp only [List.length_cons] at enough
  obtain ⟨fuel, rfl⟩ := Nat.exists_eq_add_one_of_ne_zero (show fuel ≠ 0 by omega)
  refine read (fun short => ?_) fuel rest
  refine long_append (show ¬ ShortNumerals ([keyword] ++ [of, pattern]) from long) short
    fun token member isNumber => ?_
  rcases List.mem_pair.1 member with rfl | rfl
  · exact nomatch isOf.symm.trans isNumber
  · exact nomatch isName.symm.trans isNumber

theorem all_stuck {keyword of pattern : Token} (isAll : keyword.kind = .all)
    (isOf : of.kind = .of) (isName : pattern.kind = .name) : TermStuck [keyword, of, pattern] :=
  quantifier_stuck isOf isName fun long =>
    absurd shortNumerals_nil (long_tail (by simp [isAll]) long)

theorem count_stuck {number of pattern : Token} (isNumber : number.kind = .number)
    (isOf : of.kind = .of) (isName : pattern.kind = .name) : TermStuck [number, of, pattern] :=
  quantifier_stuck isOf isName fun long fuel rest => by
    have overlong : Text.digitLimit < number.text.length := by
      by_contra limit
      refine long fun token member _ => ?_
      rw [List.mem_singleton.1 member]
      exact Nat.not_lt.1 limit
    simp only [term, isNumber, quantified_cons isOf isName, ok_bind, tokenNumber, if_pos overlong]
    exact ⟨_, rfl⟩

theorem joined_stuck (isTerm : IsTerm tokens tree) (isTail : IsTail more joined)
    (first : TermStuck tokens) (second : TailStuck more) : ExpressionStuck (tokens ++ more) := by
  intro used rest count fuel same long enough
  obtain ⟨fuel, rfl⟩ := Nat.exists_eq_add_one_of_ne_zero (show fuel ≠ 0 by omega)
  exact stuck_both isTerm isTail first second same long (Nat.le_of_lt_succ enough) id

theorem cons_stuck {keyword : Token} {how : Joining} (kind : keyword.kind = how.kind)
    (isTerm : IsTerm tokens tree) (isTail : IsTail more joined)
    (first : TermStuck tokens) (second : TailStuck more) :
    TailStuck (keyword :: (tokens ++ more)) := by
  intro left used rest count fuel same long enough
  obtain ⟨inner, rfl, behind⟩ := split_head (by rw [kind]; cases how <;> simp [Joining.kind]) same
  rw [List.length_cons] at enough
  obtain ⟨fuel, rfl⟩ := Nat.exists_eq_add_one_of_ne_zero (show fuel ≠ 0 by omega)
  have notNumber : keyword.kind ≠ .number := by rw [kind]; cases how <;> simp [Joining.kind]
  rw [List.cons_append, joinedTo_keyword kind]
  exact stuck_both isTerm isTail first second behind (long_tail notNumber long) (by omega)
    (how.join left)

theorem nil_stuck : TailStuck [] := by
  intro left used rest count fuel same long _
  obtain ⟨rfl, -⟩ := List.append_eq_nil_iff.1 same.symm
  exact absurd shortNumerals_nil long

end

mutual

theorem term_stuck {tokens : List Token} {tree : Tree} : IsTerm tokens tree → TermStuck tokens
  | .name isName => name_stuck isName
  | .not isNot isTerm => not_stuck isNot (term_stuck isTerm)
  | .group opens isExpression closes => group_stuck opens closes (expression_stuck isExpression)
  | .all isAll isOf isName => all_stuck isAll isOf isName
  | .count isNumber isOf isName => count_stuck isNumber isOf isName

theorem expression_stuck {tokens : List Token} {tree : Tree} :
    IsExpression tokens tree → ExpressionStuck tokens
  | .joined isTerm isTail => joined_stuck isTerm isTail (term_stuck isTerm) (tail_stuck isTail)

theorem tail_stuck {tokens : List Token} {joined : List (Joining × Tree)} :
    IsTail tokens joined → TailStuck tokens
  | .nil => nil_stuck
  | .cons kind isTerm isTail =>
    cons_stuck kind isTerm isTail (term_stuck isTerm) (tail_stuck isTail)

end

theorem error_of_overruns {tokens : List Token} {tree : Tree}
    (overruns : Overruns (IsExpression · tree) tokens) : Stuck (ofTokens tokens) := by
  obtain ⟨used, rest, count, rfl, isExpression, long⟩ := overruns
  have nonempty : used ++ rest ≠ [] := by
    intro none
    obtain ⟨rfl, -⟩ := List.append_eq_nil_iff.1 none
    exact isExpression.ne_nil (List.nil_append _)
  rw [ofTokens, if_neg (by simpa using nonempty)]
  refine (expression_stuck isExpression rfl long ?_).bind _
  rw [List.length_append]
  omega

/-- **Where the parser stops at a numeral.**  It does so exactly if some beginning of the tokens is an
expression, with its open groups closed, and a numeral in it is too long to be read. -/
theorem ofTokens_overlong_iff {tokens : List Token} :
    (∃ digits, ofTokens tokens = .error (.overlongNumber digits)) ↔
      ∃ tree, Overruns (IsExpression · tree) tokens :=
  ⟨fun ⟨_, failed⟩ => overruns_of_error failed, fun ⟨_, overruns⟩ => error_of_overruns overruns⟩

/-! ## Texts -/

/-- Reading the text stops at a numeral. -/
def Halts (text : String) : Prop :=
  ∃ tokens tree, scan text = .ok tokens ∧ Overruns (IsExpression · tree) tokens

theorem parse_overlong_iff {text : String} :
    (∃ digits, parse text = .error (.overlongNumber digits)) ↔ Halts text := by
  unfold Halts parse
  cases scan text with
  | error e => exact iff_of_false nofun nofun
  | ok tokens => simpa using ofTokens_overlong_iff

end LogAlert.Condition
