/-
# LogAlert.Proofs.Condition.Stack -- reading a condition token by token

The parser calls itself for what is inside a group, so that nothing is known of its state between
two tokens.  A `Progress` says it: what is expected next, what the term that is expected will be put
into (`Frame`), and the frames of the groups that are still open.  `Progress.step` reads one token.
At the end, the open groups are closed from the innermost on.

* `toOption_ofTokens`: reading token by token gives the trees that the parser gives.  Each of the
  three functions of the parser is followed through, by induction on the fuel (`follows`).
* `run_within`, `run_within_inv`: what is read does not depend on the groups that were open before, as
  long as none of these is closed, which can be counted (`groupsAfter`).  Both follow from what one
  token can do (`step_cases`).
-/
import LogAlert.Proofs.Condition.Acceptance
import Mathlib.Logic.Function.Iterate

set_option autoImplicit false

namespace LogAlert.Condition

/-! ## Reading one token -/

/-- What a term is put into: it is negated so many times, and then joined to what stands before. -/
structure Frame where
  before : Option (Joining × Tree)
  negations : Nat

namespace Frame

/-- Nothing stands before the term. -/
def start : Frame := ⟨none, 0⟩

/-- The term is joined to a tree. -/
def joined (how : Joining) (left : Tree) : Frame := ⟨some (how, left), 0⟩

/-- The term is negated once more. -/
def negated (frame : Frame) : Frame := { frame with negations := frame.negations + 1 }

/-- The tree, once the term is there. -/
def fill (frame : Frame) (term : Tree) : Tree :=
  let operand := Tree.not^[frame.negations] term
  match frame.before with
  | none => operand
  | some (how, left) => how.join left operand

end Frame

/-- What is expected. -/
inductive Place where
  /-- A term. -/
  | term (frame : Frame)
  /-- The keyword behind `all` or a number. -/
  | of (count : Option Nat) (frame : Frame)
  /-- The pattern of a quantifier. -/
  | pattern (count : Option Nat) (frame : Frame)
  /-- Something that joins a term to this tree, or the end of the group. -/
  | behind (tree : Tree)

/-- How far the tokens have been read. -/
structure Progress where
  place : Place
  /-- The frames of the open groups, the innermost one first. -/
  groups : List Frame

/-- The tree of which this is the innermost part, once all these groups are closed. -/
def fillAll (tree : Tree) (groups : List Frame) : Tree :=
  groups.foldl (fun tree frame => frame.fill tree) tree

theorem fillAll_cons (tree : Tree) (frame : Frame) (groups : List Frame) :
    fillAll tree (frame :: groups) = fillAll (frame.fill tree) groups := rfl

namespace Progress

/-- Nothing has been read. -/
def start : Progress := ⟨.term .start, []⟩

/-- One token is read, if it can stand here. -/
def step (progress : Progress) (token : Token) : Option Progress :=
  match progress.place, token.kind with
  | .term frame, .not => some { progress with place := .term frame.negated }
  | .term frame, .openParen => some ⟨.term .start, frame :: progress.groups⟩
  | .term frame, .all => some { progress with place := .of none frame }
  | .term frame, .number =>
    (tokenNumber token.text).toOption.map fun count =>
      { progress with place := .of (some count) frame }
  | .term frame, .name =>
    some { progress with place := .behind (frame.fill (.selection token.text)) }
  | .of count frame, .of => some { progress with place := .pattern count frame }
  | .pattern count frame, .name =>
    some { progress with place := .behind (frame.fill (.quantified token.text count)) }
  | .behind tree, .and => some { progress with place := .term (.joined .and tree) }
  | .behind tree, .or => some { progress with place := .term (.joined .or tree) }
  | .behind tree, .closeParen =>
    match progress.groups with
    | [] => none
    | frame :: groups => some ⟨.behind (frame.fill tree), groups⟩
  | _, _ => none

/-- These tokens are read, one after the other. -/
def run (progress : Progress) (tokens : List Token) : Option Progress := tokens.foldlM step progress

/-- The tree, if the condition may end here. -/
def finish (progress : Progress) : Option Tree :=
  match progress.place with
  | .behind tree => some (fillAll tree progress.groups)
  | _ => none

/-- The tree, if these are all tokens that are left. -/
def readFrom (progress : Progress) (tokens : List Token) : Option Tree :=
  (progress.run tokens).bind finish

variable {progress after : Progress} {token : Token} {tokens rest : List Token}

theorem run_cons (progress : Progress) (token : Token) (rest : List Token) :
    progress.run (token :: rest) = (progress.step token).bind (·.run rest) := rfl

theorem run_append (progress : Progress) (tokens more : List Token) :
    progress.run (tokens ++ more) = (progress.run tokens).bind (·.run more) :=
  List.foldlM_append

/-- Behind a tree nothing else can stand than what joins a term to it or closes a group. -/
theorem step_behind_stuck {tree : Tree} {groups : List Frame} (notAnd : token.kind ≠ .and)
    (notOr : token.kind ≠ .or) (notClose : token.kind ≠ .closeParen ∨ groups = []) :
    step ⟨.behind tree, groups⟩ token = none := by
  unfold step
  split <;> simp_all

theorem readFrom_cons (progress : Progress) (token : Token) (rest : List Token) :
    progress.readFrom (token :: rest) = (progress.step token).bind (·.readFrom rest) := by
  rw [readFrom, run_cons, Option.bind_assoc]
  rfl

end Progress

open Progress

/-! ## The parser, followed through -/

section

variable {fuel : Nat} {tokens rest : List Token} {tree left : Tree}

/-- A term has at least one token. -/
theorem length_of_term (read : term fuel tokens = .ok (tree, rest)) :
    rest.length < tokens.length := by
  obtain ⟨used, count, rfl, isTerm, -⟩ := (sound fuel).term read
  obtain ⟨token, others, startsWith, ordinary⟩ := isTerm.head
  obtain ⟨more, rfl, -⟩ := split_head ordinary startsWith.symm
  simp only [List.cons_append, List.length_cons, List.length_append]
  omega

theorem ends_of_joinedTo (read : joinedTo fuel left tokens = .ok (tree, rest)) : Ends rest := by
  induction fuel generalizing left tokens with
  | zero =>
      rw [joinedTo] at read
      cases read
  | succ fuel ih =>
      cases tokens with
      | nil =>
          rw [joinedTo] at read
          cases read
          intro token others same
          cases same
      | cons token tokens =>
          rw [joinedTo] at read
          split at read
          · obtain ⟨next, -, read⟩ := bind_eq_ok.1 read
            exact ih read
          · obtain ⟨next, -, read⟩ := bind_eq_ok.1 read
            exact ih read
          · rename_i notAnd notOr
            cases read
            rintro _ _ same
            cases same
            exact ⟨notAnd, notOr⟩

/-- Behind an expression there is nothing that joins a term to it. -/
theorem ends_of_expression (read : expression fuel tokens = .ok (tree, rest)) : Ends rest := by
  cases fuel with
  | zero =>
      rw [expression] at read
      cases read
  | succ fuel =>
      rw [expression] at read
      obtain ⟨next, -, read⟩ := bind_eq_ok.1 read
      exact ends_of_joinedTo read

end

/-- A quantifier is read from its second token on. -/
theorem readFrom_quantified (count : Option Nat) (frame : Frame) (groups : List Frame)
    (tokens : List Token) :
    readFrom ⟨.of count frame, groups⟩ tokens =
      (quantified tokens).toOption.bind fun read =>
        readFrom ⟨.behind (frame.fill (.quantified read.1 count)), groups⟩ read.2 := by
  rw [quantified, toOption_bind, Option.bind_assoc]
  cases tokens with
  | nil => rfl
  | cons of tokens =>
      rw [readFrom_cons, expect]
      by_cases isOf : of.kind = .of
      · simp only [step, isOf, if_true, Option.bind_some, Except.toOption]
        cases tokens with
        | nil => rfl
        | cons token rest =>
            rw [readFrom_cons, pattern]
            by_cases isName : token.kind = .name
            · simp only [step, isName, if_true, Option.bind_some]
            · rw [if_neg isName]
              have stuck : step ⟨.pattern count frame, groups⟩ token = none := by
                unfold step
                split <;> simp_all
              rw [stuck]
              rfl
      · rw [if_neg isOf]
        have stuck : step ⟨.of count frame, groups⟩ of = none := by
          unfold step
          split <;> simp_all
        rw [stuck]
        rfl

/-- What a call with this fuel returns is read token by token, for each of the three readers: in any
frame and within any groups, the tokens up to the returned rest lead behind the returned tree. -/
structure Follows (fuel : Nat) : Prop where
  term (tokens : List Token) (frame : Frame) (groups : List Frame) :
    2 * tokens.length ≤ fuel →
    readFrom ⟨.term frame, groups⟩ tokens =
      (term fuel tokens).toOption.bind fun read =>
        readFrom ⟨.behind (frame.fill read.1), groups⟩ read.2
  expression (tokens : List Token) (groups : List Frame) :
    2 * tokens.length < fuel →
    readFrom ⟨.term .start, groups⟩ tokens =
      (expression fuel tokens).toOption.bind fun read =>
        readFrom ⟨.behind read.1, groups⟩ read.2
  joinedTo (left : Tree) (tokens : List Token) (groups : List Frame) :
    2 * tokens.length < fuel →
    readFrom ⟨.behind left, groups⟩ tokens =
      (joinedTo fuel left tokens).toOption.bind fun read =>
        readFrom ⟨.behind read.1, groups⟩ read.2

section

variable {fuel : Nat}

theorem follows_term (follows : Follows fuel) (tokens : List Token) (frame : Frame)
    (groups : List Frame) (enough : 2 * tokens.length ≤ fuel + 1) :
    readFrom ⟨.term frame, groups⟩ tokens =
      (term (fuel + 1) tokens).toOption.bind fun read =>
        readFrom ⟨.behind (frame.fill read.1), groups⟩ read.2 := by
  cases tokens with
  | nil => rfl
  | cons token tokens =>
      rw [List.length_cons] at enough
      rw [readFrom_cons]
      cases kind : token.kind with
      | not =>
          simp only [step, term, kind, Option.bind_some, toOption_bind, Option.bind_assoc]
          rw [follows.term tokens frame.negated groups (by omega)]
          rfl
      | openParen =>
          simp only [step, term, kind, Option.bind_some, toOption_bind, Option.bind_assoc]
          rw [follows.expression tokens (frame :: groups) (by omega)]
          cases inside : expression fuel tokens with
          | error error => rfl
          | ok read =>
              obtain ⟨tree, rest⟩ := read
              simp only [Except.toOption, Option.bind_some]
              cases rest with
              | nil => rfl
              | cons closing rest =>
                  obtain ⟨notAnd, notOr⟩ := ends_of_expression inside closing rest rfl
                  rw [readFrom_cons, expect]
                  by_cases closes : closing.kind = .closeParen
                  · simp only [step, closes, if_true, Option.bind_some]
                    rfl
                  · rw [step_behind_stuck notAnd notOr (.inl closes), if_neg closes]
                    rfl
      | all =>
          simp only [step, term, kind, Option.bind_some, toOption_bind, Option.bind_assoc]
          exact readFrom_quantified none frame groups tokens
      | number =>
          simp only [step, term, kind, toOption_bind, Option.bind_assoc]
          cases tokenNumber token.text with
          | error error => simp [Except.toOption]
          | ok count =>
              simp only [Except.toOption, Option.map_some, Option.bind_some]
              exact readFrom_quantified (some count) frame groups tokens
      | name =>
          simp only [step, term, kind, Option.bind_some]
          rfl
      | closeParen | and | or | of =>
          simp only [step, term, kind]
          rfl

theorem follows_expression (follows : Follows fuel) (tokens : List Token) (groups : List Frame)
    (enough : 2 * tokens.length < fuel + 1) :
    readFrom ⟨.term .start, groups⟩ tokens =
      (expression (fuel + 1) tokens).toOption.bind fun read =>
        readFrom ⟨.behind read.1, groups⟩ read.2 := by
  rw [expression, follows.term tokens .start groups (by omega), toOption_bind, Option.bind_assoc]
  cases first : term fuel tokens with
  | error error => rfl
  | ok read =>
      have shorter := length_of_term first
      exact follows.joinedTo read.1 read.2 groups (by omega)

theorem follows_joinedTo (follows : Follows fuel) (left : Tree) (tokens : List Token)
    (groups : List Frame) (enough : 2 * tokens.length < fuel + 1) :
    readFrom ⟨.behind left, groups⟩ tokens =
      (joinedTo (fuel + 1) left tokens).toOption.bind fun read =>
        readFrom ⟨.behind read.1, groups⟩ read.2 := by
  have keyword (how : Joining) {token : Token} {tokens : List Token} (kind : token.kind = how.kind)
      (enough : 2 * (tokens.length + 1) < fuel + 1) :
      readFrom ⟨.behind left, groups⟩ (token :: tokens) =
        (joinedTo (fuel + 1) left (token :: tokens)).toOption.bind fun read =>
          readFrom ⟨.behind read.1, groups⟩ read.2 := by
    have stepped : step ⟨.behind left, groups⟩ token = some ⟨.term (.joined how left), groups⟩ := by
      cases how <;> simp only [step, kind, Joining.kind]
    rw [readFrom_cons, stepped, joinedTo_keyword kind, toOption_bind, Option.bind_assoc,
      Option.bind_some, follows.term tokens (.joined how left) groups (by omega)]
    cases right : term fuel tokens with
    | error error => rfl
    | ok read =>
        have shorter := length_of_term right
        exact follows.joinedTo (how.join left read.1) read.2 groups (by omega)
  cases tokens with
  | nil => rfl
  | cons token tokens =>
      rw [List.length_cons] at enough
      by_cases isAnd : token.kind = .and
      · exact keyword .and isAnd enough
      by_cases isOr : token.kind = .or
      · exact keyword .or isOr enough
      have ends : Ends (token :: tokens) := by
        rintro _ _ same
        cases same
        exact ⟨isAnd, isOr⟩
      rw [joinedTo_ends ends]
      rfl

end

theorem follows (fuel : Nat) : Follows fuel := by
  induction fuel with
  | zero =>
      constructor
      · intro tokens frame groups enough
        obtain rfl : tokens = [] := List.length_eq_zero_iff.1 (by omega)
        rfl
      · intro tokens groups enough
        omega
      · intro left tokens groups enough
        omega
  | succ fuel ih => exact ⟨follows_term ih, follows_expression ih, follows_joinedTo ih⟩

/-- **Reading token by token gives the trees that the parser gives.** -/
theorem toOption_ofTokens (tokens : List Token) :
    (ofTokens tokens).toOption = readFrom .start tokens := by
  rw [ofTokens]
  cases tokens with
  | nil => rfl
  | cons token tokens =>
      have whole := (follows (3 * (token :: tokens).length + 3)).expression (token :: tokens) []
        (by omega)
      rw [start, whole, if_neg (by simp), toOption_bind]
      cases read : expression (3 * (token :: tokens).length + 3) (token :: tokens) with
      | error error => rfl
      | ok read' =>
          obtain ⟨tree, rest⟩ := read'
          cases rest with
          | nil => rfl
          | cons token rest =>
              obtain ⟨notAnd, notOr⟩ := ends_of_expression read token rest rfl
              simp only [Except.toOption, Option.bind_some, readFrom_cons,
                step_behind_stuck notAnd notOr (.inr rfl)]
              rfl

/-! ## Groups -/

/-- A parenthesis opens a group, or closes one. -/
inductive Side where
  | opens
  | closes
deriving DecidableEq, Repr

/-- The number of open groups behind this, if a group is open where one is closed. -/
def levelAfter : Option Side → Nat → Option Nat
  | none, level => some level
  | some .opens, level => some (level + 1)
  | some .closes, 0 => none
  | some .closes, level + 1 => some level

/-- The number of open groups behind all of this, if nowhere more groups are closed than are open. -/
def groupsAfter {α : Type} (side : α → Option Side) (level : Nat) (parts : List α) : Option Nat :=
  parts.foldlM (fun level part => levelAfter (side part) level) level

theorem groupsAfter_cons {α : Type} (side : α → Option Side) (level : Nat) (part : α)
    (rest : List α) : groupsAfter side level (part :: rest) =
      (levelAfter (side part) level).bind fun level => groupsAfter side level rest := rfl

theorem groupsAfter_append {α : Type} (side : α → Option Side) (level : Nat) (parts more : List α) :
    groupsAfter side level (parts ++ more) =
      (groupsAfter side level parts).bind fun level => groupsAfter side level more :=
  List.foldlM_append

/-- What a token does to groups. -/
def Token.side (token : Token) : Option Side :=
  match token.kind with
  | .openParen => some .opens
  | .closeParen => some .closes
  | _ => none

namespace Progress

variable {progress after : Progress} {token : Token} {tokens : List Token} {base : List Frame}

/-- The same within groups that were open before. -/
def within (progress : Progress) (base : List Frame) : Progress :=
  { progress with groups := progress.groups ++ base }

theorem kind_of_opens (opens : token.side = some .opens) : token.kind = .openParen := by
  unfold Token.side at opens
  split at opens <;> simp_all

theorem kind_of_closes (closes : token.side = some .closes) : token.kind = .closeParen := by
  unfold Token.side at closes
  split at closes <;> simp_all

theorem step_opens (opens : token.side = some .opens) (frame : Frame) (groups : List Frame) :
    step ⟨.term frame, groups⟩ token = some ⟨.term .start, frame :: groups⟩ := by
  simp only [step, kind_of_opens opens]

theorem step_closes (closes : token.side = some .closes) (tree : Tree) (frame : Frame)
    (groups : List Frame) :
    step ⟨.behind tree, frame :: groups⟩ token = some ⟨.behind (frame.fill tree), groups⟩ := by
  simp only [step, kind_of_closes closes]

/-- What a token can do: it opens a group where a term is expected, it closes the innermost group
behind a tree, or it leaves the groups alone and does the same within any others. -/
theorem step_cases (stepped : progress.step token = some after) :
    (token.side = none ∧ ∃ place, after = ⟨place, progress.groups⟩ ∧
      ∀ groups, step ⟨progress.place, groups⟩ token = some ⟨place, groups⟩) ∨
    (token.side = some .opens ∧ ∃ frame, progress.place = .term frame ∧
      after = ⟨.term .start, frame :: progress.groups⟩) ∨
    (token.side = some .closes ∧ ∃ tree frame groups, progress = ⟨.behind tree, frame :: groups⟩ ∧
      after = ⟨.behind (frame.fill tree), groups⟩) := by
  obtain ⟨place, groups⟩ := progress
  cases kind : token.kind with
  | openParen =>
      refine .inr (.inl ⟨by rw [Token.side, kind], ?_⟩)
      cases place with
      | term frame =>
          simp only [step, kind, Option.some.injEq] at stepped
          exact ⟨frame, rfl, stepped.symm⟩
      | of | pattern | behind => simp [step, kind] at stepped
  | closeParen =>
      refine .inr (.inr ⟨by rw [Token.side, kind], ?_⟩)
      cases place with
      | behind tree =>
          cases groups with
          | nil => simp [step, kind] at stepped
          | cons frame groups =>
              simp only [step, kind, Option.some.injEq] at stepped
              exact ⟨tree, frame, groups, rfl, stepped.symm⟩
      | of | pattern | term => simp [step, kind] at stepped
  | number =>
      refine .inl ⟨by rw [Token.side, kind], ?_⟩
      cases place with
      | term frame =>
          simp only [step, kind, Option.map_eq_some_iff] at stepped
          obtain ⟨count, read, rfl⟩ := stepped
          exact ⟨.of (some count) frame, rfl, fun groups => by simp only [step, kind, read]; rfl⟩
      | of | pattern | behind => simp [step, kind] at stepped
  | and | or | not | of | all | name =>
      refine .inl ⟨by rw [Token.side, kind], ?_⟩
      cases place with
      | term | of | pattern | behind =>
          simp only [step, kind, Option.some.injEq, reduceCtorEq] at stepped
          all_goals exact ⟨_, stepped.symm, fun groups => by simp only [step, kind]⟩

/-- The groups that are open can be counted without parsing. -/
theorem level_of_step (stepped : progress.step token = some after) :
    levelAfter token.side progress.groups.length = some after.groups.length := by
  rcases step_cases stepped with ⟨none, place, rfl, -⟩ | ⟨opens, frame, -, rfl⟩ |
    ⟨closes, tree, frame, groups, rfl, rfl⟩
  · rw [none]
    rfl
  · rw [opens]
    rfl
  · rw [closes]
    rfl

theorem step_within (stepped : progress.step token = some after) (base : List Frame) :
    (progress.within base).step token = some (after.within base) := by
  rcases step_cases stepped with ⟨-, place, rfl, same⟩ | ⟨opens, frame, isTerm, rfl⟩ |
    ⟨closes, tree, frame, groups, rfl, rfl⟩
  · exact same _
  · rw [within, isTerm]
    exact step_opens opens frame _
  · exact step_closes closes tree frame _

/-- A token that closes none of the groups that were open before does not see them. -/
theorem step_within_inv {level : Nat}
    (own : levelAfter token.side progress.groups.length = some level)
    (stepped : (progress.within base).step token = some after) :
    ∃ inner, progress.step token = some inner ∧ after = inner.within base := by
  obtain ⟨place, groups⟩ := progress
  rcases step_cases stepped with ⟨-, place, rfl, same⟩ | ⟨opens, frame, isTerm, rfl⟩ |
    ⟨closes, tree, frame, more, same, rfl⟩
  · exact ⟨⟨place, groups⟩, same groups, rfl⟩
  · obtain rfl : _ = Place.term frame := isTerm
    exact ⟨⟨.term .start, frame :: groups⟩, step_opens opens frame groups, rfl⟩
  · cases groups with
    | nil =>
        rw [closes] at own
        cases own
    | cons inner groups =>
        cases same
        exact ⟨⟨.behind (frame.fill tree), groups⟩, step_closes closes tree frame groups, rfl⟩

/-- The groups that are open behind these tokens can be counted without parsing. -/
theorem level_of_run (ran : progress.run tokens = some after) :
    groupsAfter Token.side progress.groups.length tokens = some after.groups.length := by
  induction tokens generalizing progress with
  | nil =>
      cases ran
      rfl
  | cons token tokens ih =>
      obtain ⟨next, stepped, ran⟩ := Option.bind_eq_some_iff.1 ran
      rw [groupsAfter_cons, level_of_step stepped]
      exact ih ran

/-- Tokens are read within other groups as they are read by themselves. -/
theorem run_within (ran : progress.run tokens = some after) (base : List Frame) :
    (progress.within base).run tokens = some (after.within base) := by
  induction tokens generalizing progress with
  | nil =>
      cases ran
      rfl
  | cons token tokens ih =>
      obtain ⟨next, stepped, ran⟩ := Option.bind_eq_some_iff.1 ran
      rw [run_cons, step_within stepped]
      exact ih ran

/-- Tokens that close none of the groups that were open before are read without these, too. -/
theorem run_within_inv {level : Nat}
    (own : groupsAfter Token.side progress.groups.length tokens = some level)
    (ran : (progress.within base).run tokens = some after) :
    ∃ inner, progress.run tokens = some inner ∧ after = inner.within base := by
  induction tokens generalizing progress with
  | nil =>
      cases ran
      exact ⟨progress, rfl, rfl⟩
  | cons token tokens ih =>
      obtain ⟨next, stepped, ran⟩ := Option.bind_eq_some_iff.1 ran
      rw [groupsAfter_cons] at own
      obtain ⟨level', one, others⟩ := Option.bind_eq_some_iff.1 own
      obtain ⟨inner, read, rfl⟩ := step_within_inv one stepped
      rw [level_of_step read, Option.some.injEq] at one
      obtain ⟨last, ran', rfl⟩ := ih (one ▸ others) ran
      exact ⟨last, by rw [run_cons, read]; exact ran', rfl⟩

end Progress

end LogAlert.Condition
