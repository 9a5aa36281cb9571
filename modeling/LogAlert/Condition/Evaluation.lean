/-
# LogAlert.Condition.Evaluation -- whether a condition holds

A condition is evaluated over the names of a rule's selections. Whether a selection matches is asked
of a question function; asking may fail, or have any other effect. The answers are kept in a
`Memory`, in the order in which they were first asked for, so that no selection is asked about
twice. `and`, `or` and quantifiers stop as soon as the result is known.

`Tree.meaning` gives the same result without memory and without order, as a formula over the
answers.
-/
import LogAlert.Condition.Tree
import LogAlert.Pattern

set_option autoImplicit false

namespace LogAlert.Condition

/-- Keys of a detection that are not selections. -/
def reservedNames : List String := ["condition", "timeframe"]

/-- The selections that a pattern stands for: all of them, those whose name fits its wildcards, or
the one with that name. -/
def selectedNames (pattern : String) (names : List String) : List String :=
  let candidates := names.filter (· ∉ reservedNames)
  if Text.lower pattern = "them" then candidates
  else if '*' ∈ pattern.toList then
    candidates.filter (Pattern.matchesText Pattern.ofName pattern)
  else candidates.filter (· = pattern)

/-- The selection that a name stands for: the one with exactly this name, else the first one whose
name differs from it in case only. -/
def resolvedName (names : List String) (name : String) : Option String :=
  if name ∈ names then some name
  else names.find? fun candidate => Text.lower candidate = Text.lower name

/-- The answers given so far, in the order in which they were asked for. -/
abbrev Memory := List (String × Bool)

section

variable {m : Type → Type} [Monad m]

/-- The answer for a selection: the remembered one, or a new one, which is then remembered. -/
def askAbout (question : String → m Bool) (name : String) (memory : Memory) :
    m (Bool × Memory) :=
  match memory.lookup name with
  | some answer => pure (answer, memory)
  | none => do
    let answer ← question name
    return (answer, memory ++ [(name, answer)])

/-- All selections of the list match. -/
def askAll (question : String → m Bool) : List String → Memory → m (Bool × Memory)
  | [], memory => pure (true, memory)
  | name :: rest, memory => do
    let (answer, memory) ← askAbout question name memory
    if answer then askAll question rest memory else return (false, memory)

/-- At least so many selections of the list match; the count is positive. -/
def askCount (question : String → m Bool) :
    Nat → List String → Memory → m (Bool × Memory)
  | _, [], memory => pure (false, memory)
  | count, name :: rest, memory => do
    let (answer, memory) ← askAbout question name memory
    if answer then
      if count ≤ 1 then return (true, memory) else askCount question (count - 1) rest memory
    else askCount question count rest memory

/-- Evaluate a condition, asking only for what its result depends on. -/
def Tree.evaluate (names : List String) (question : String → m Bool) :
    Tree → Memory → m (Bool × Memory)
  | .selection name, memory =>
    match resolvedName names name with
    | some found => askAbout question found memory
    | none => pure (false, memory)
  | .not t, memory => do
    let (b, memory) ← t.evaluate names question memory
    return (!b, memory)
  | .and l r, memory => do
    let (b, memory) ← l.evaluate names question memory
    if b then r.evaluate names question memory else return (false, memory)
  | .or l r, memory => do
    let (b, memory) ← l.evaluate names question memory
    if b then return (true, memory) else r.evaluate names question memory
  | .quantified pattern count, memory =>
    match selectedNames pattern names, count with
    | [], _ => pure (false, memory)
    | selected, none => askAll question selected memory
    | _, some 0 => pure (true, memory)
    | selected, some count => askCount question count selected memory

end

/-- The result of a condition as a formula over the answers: no order, no memory. -/
def Tree.meaning (names : List String) (answer : String → Bool) : Tree → Bool
  | .selection name =>
    match resolvedName names name with
    | some found => answer found
    | none => false
  | .not t => !t.meaning names answer
  | .and l r => l.meaning names answer && r.meaning names answer
  | .or l r => l.meaning names answer || r.meaning names answer
  | .quantified pattern count =>
    let selected := selectedNames pattern names
    match count with
    | none => !selected.isEmpty && selected.all answer
    | some count => !selected.isEmpty && decide (count ≤ selected.countP answer)

end LogAlert.Condition
