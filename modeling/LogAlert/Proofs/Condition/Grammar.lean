/-
# LogAlert.Proofs.Condition.Grammar -- the grammar of conditions, as a relation

    expression := term (("and" | "or") term)*
    term       := "not" term | "(" expression ")" | ("all" | number) "of" name | name

`IsTerm` and `IsExpression` relate lists of tokens to the trees that they stand for; groups are
closed.  `joinAll` is the tree of joined terms: `and` and `or` bind equally strongly and are grouped
from the left.  Nothing here refers to the parser, which closes open groups by itself: what it makes
of a list of tokens is the tree of that list followed by some closing parentheses (`closers`).
-/
import LogAlert.Condition.Tree
import Mathlib.Tactic.Common

set_option autoImplicit false

namespace LogAlert.Condition

/-- How a term is joined to what stands before it. -/
inductive Joining where
  | and
  | or
deriving DecidableEq, Repr

namespace Joining

/-- The keyword for a joining. -/
def kind : Joining → Kind
  | and => .and
  | or => .or

/-- Two conditions joined. -/
def join : Joining → Tree → Tree → Tree
  | and => .and
  | or => .or

end Joining

/-- A term and the terms joined to it, grouped from the left. -/
def joinAll (first : Tree) (joined : List (Joining × Tree)) : Tree :=
  joined.foldl (fun left (how, right) => how.join left right) first

mutual

/-- The tokens are a term, with this tree. -/
inductive IsTerm : List Token → Tree → Prop where
  | name {name : Token} : name.kind = .name → IsTerm [name] (.selection name.text)
  | not {keyword : Token} {tokens : List Token} {tree : Tree} :
      keyword.kind = .not → IsTerm tokens tree → IsTerm (keyword :: tokens) (.not tree)
  | group {opening closing : Token} {tokens : List Token} {tree : Tree} :
      opening.kind = .openParen → IsExpression tokens tree → closing.kind = .closeParen →
      IsTerm (opening :: (tokens ++ [closing])) tree
  | all {keyword of pattern : Token} :
      keyword.kind = .all → of.kind = .of → pattern.kind = .name →
      IsTerm [keyword, of, pattern] (.quantified pattern.text none)
  | count {number of pattern : Token} :
      number.kind = .number → of.kind = .of → pattern.kind = .name →
      IsTerm [number, of, pattern]
        (.quantified pattern.text (some (Nat.ofDigitChars 10 number.text.toList 0)))

/-- The tokens are an expression, with this tree. -/
inductive IsExpression : List Token → Tree → Prop where
  | joined {tokens more : List Token} {first : Tree} {joined : List (Joining × Tree)} :
      IsTerm tokens first → IsTail more joined → IsExpression (tokens ++ more) (joinAll first joined)

/-- The tokens are keywords with terms behind them, joined to what stands before. -/
inductive IsTail : List Token → List (Joining × Tree) → Prop where
  | nil : IsTail [] []
  | cons {keyword : Token} {how : Joining} {tokens more : List Token} {tree : Tree}
      {joined : List (Joining × Tree)} :
      keyword.kind = how.kind → IsTerm tokens tree → IsTail more joined →
      IsTail (keyword :: (tokens ++ more)) ((how, tree) :: joined)

end

theorem IsTerm.expression {tokens : List Token} {tree : Tree} (isTerm : IsTerm tokens tree) :
    IsExpression tokens tree := by
  simpa [joinAll] using IsExpression.joined isTerm .nil

/-- So many closing parentheses. -/
def closers (count : Nat) : List Token := List.replicate count ⟨.closeParen, ")", 0⟩

@[simp] theorem closers_zero : closers 0 = [] := rfl

theorem closers_succ (count : Nat) : closers (count + 1) = closers count ++ closers 1 :=
  List.replicate_succ'

theorem kind_of_mem_closers {token : Token} {count : Nat} (member : token ∈ closers count) :
    token.kind = .closeParen := by
  rw [List.eq_of_mem_replicate member]

/-- A term begins with something else than a closing parenthesis. -/
theorem IsTerm.head {tokens : List Token} {tree : Tree} (isTerm : IsTerm tokens tree) :
    ∃ token rest, tokens = token :: rest ∧ token.kind ≠ .closeParen := by
  cases isTerm with
  | name kind => exact ⟨_, _, rfl, by simp [kind]⟩
  | not kind _ => exact ⟨_, _, rfl, by simp [kind]⟩
  | group kind _ _ => exact ⟨_, _, rfl, by simp [kind]⟩
  | all kind _ _ => exact ⟨_, _, rfl, by simp [kind]⟩
  | count kind _ _ => exact ⟨_, _, rfl, by simp [kind]⟩

/-- So does what is joined to a term, if it is there at all. -/
theorem IsTail.head {tokens : List Token} {joined : List (Joining × Tree)}
    (isTail : IsTail tokens joined) {token : Token} {rest : List Token}
    (nonempty : tokens = token :: rest) : token.kind ≠ .closeParen := by
  cases isTail with
  | nil => cases nonempty
  | @cons _ how _ _ _ _ kind _ _ =>
      cases nonempty
      rw [kind]
      cases how <;> simp [Joining.kind]

/-! ## Splitting closing parentheses off -/

variable {used tokens more : List Token} {count : Nat}

theorem split_head {token : Token} (ordinary : token.kind ≠ .closeParen)
    (same : token :: tokens = used ++ closers count) :
    ∃ rest, used = token :: rest ∧ tokens = rest ++ closers count := by
  cases used with
  | nil =>
      have member : token ∈ closers count := by
        rw [List.nil_append] at same
        exact same ▸ List.mem_cons_self
      exact absurd (kind_of_mem_closers member) ordinary
  | cons first rest =>
      rw [List.cons_append, List.cons.injEq] at same
      exact ⟨rest, by rw [same.1], same.2⟩

theorem split_last {token : Token} (ordinary : token.kind ≠ .closeParen)
    (same : tokens ++ [token] = used ++ closers count) : count = 0 := by
  cases count with
  | zero => rfl
  | succ count =>
      rw [closers_succ, ← List.append_assoc] at same
      have last := (List.append_inj' same rfl).2
      cases last
      exact absurd rfl ordinary

/-- Closing parentheses behind two parts belong to the second part, unless that is empty. -/
theorem split_tail (ordinary : ∀ token rest, more = token :: rest → token.kind ≠ .closeParen)
    (same : tokens ++ more = used ++ closers count) :
    (∃ rest, used = tokens ++ rest ∧ more = rest ++ closers count) ∨
      (more = [] ∧ tokens = used ++ closers count) := by
  rcases List.append_eq_append_iff.1 same with ⟨rest, one, two⟩ | ⟨rest, one, two⟩
  · exact .inl ⟨rest, one, two⟩
  · cases more with
    | nil =>
        rw [List.append_nil] at two
        exact .inr ⟨rfl, two ▸ one⟩
    | cons token others =>
        have member : token ∈ closers count := by
          rw [two]
          exact List.mem_append_right _ List.mem_cons_self
        exact absurd (kind_of_mem_closers member) (ordinary token others rfl)

end LogAlert.Condition
