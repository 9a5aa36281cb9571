/-
# LogAlert.Condition.Tree -- conditions as trees

    expression := term (("and" | "or") term)*
    term       := "not" term | "(" expression ")" | quantifier | name
    quantifier := ("all" | number) "of" name

`and` and `or` bind equally strongly and are grouped from the left, so that `a or b and c` means
`(a or b) and c`. Groups that are still open at the end of the condition are closed there. The
parser consumes a token with every second step, so three steps for each token are enough.
-/
import LogAlert.Condition.Token

set_option autoImplicit false

namespace LogAlert.Condition

/-- A condition on the selections of a rule. -/
inductive Tree where
  /-- The selection of this name matches. -/
  | selection (name : String)
  | not (operand : Tree)
  | and (left right : Tree)
  | or (left right : Tree)
  /-- All selections that fit the pattern match, or at least so many of them. -/
  | quantified (pattern : String) (count : Option Nat)
deriving DecidableEq, Repr

namespace Tree

/-- The tree and the trees below it, each before its own parts, from left to right. -/
def nodes : Tree → List Tree
  | .selection name => [.selection name]
  | .not t => .not t :: t.nodes
  | .and l r => .and l r :: l.nodes ++ r.nodes
  | .or l r => .or l r :: l.nodes ++ r.nodes
  | .quantified pattern count => [.quantified pattern count]

/-- The names of the selections that the condition mentions, in their order. -/
def names (t : Tree) : List String :=
  t.nodes.filterMap fun
    | .selection name => some name
    | _ => none

end Tree

/-- Why a text is not read as a condition. -/
inductive ParseError where
  | syntaxError (error : SyntaxError)
  /-- A number has more digits than are read. -/
  | overlongNumber (digits : Nat)
deriving DecidableEq, Repr

/-- The tokens behind a token of the given kind. -/
def expect (kind : Kind) : List Token → Except ParseError (List Token)
  | [] => .error (.syntaxError (.expected kind none))
  | token :: rest =>
    if token.kind = kind then .ok rest
    else .error (.syntaxError (.expected kind (some token)))

/-- The pattern of a quantifier. -/
def pattern : List Token → Except ParseError (String × List Token)
  | [] => .error (.syntaxError .missingPattern)
  | token :: rest =>
    if token.kind = .name then .ok (token.text, rest)
    else .error (.syntaxError (.invalidPattern token))

/-- The pattern of a quantifier, from its keyword on. -/
def quantified (tokens : List Token) : Except ParseError (String × List Token) := do
  let rest ← expect .of tokens
  pattern rest

/-- The number that a token of digits writes. -/
def tokenNumber (text : String) : Except ParseError Nat :=
  if Text.digitLimit < text.length then .error (.overlongNumber text.length)
  else .ok (Text.ofDigits 10 (text.toList.map fun c => c.toNat - 48))

mutual

/-- One term. -/
def term : Nat → List Token → Except ParseError (Tree × List Token)
  | 0, _ => .error (.syntaxError .unexpectedEnd)
  | _ + 1, [] => .error (.syntaxError .unexpectedEnd)
  | fuel + 1, token :: rest =>
    match token.kind with
    | .not => do
      let (t, rest) ← term fuel rest
      return (.not t, rest)
    | .openParen => do
      let (t, rest) ← expression fuel rest
      match rest with
      | [] => return (t, [])
      | _ :: _ =>
        let rest ← expect .closeParen rest
        return (t, rest)
    | .all => do
      let (name, rest) ← quantified rest
      return (.quantified name none, rest)
    | .number => do
      let (name, rest) ← quantified rest
      let count ← tokenNumber token.text
      return (.quantified name (some count), rest)
    | .name => .ok (.selection token.text, rest)
    | .closeParen | .and | .or | .of => .error (.syntaxError (.unexpected token))

/-- A term and the terms that are joined to it. -/
def expression : Nat → List Token → Except ParseError (Tree × List Token)
  | 0, _ => .error (.syntaxError .unexpectedEnd)
  | fuel + 1, tokens => do
    let (t, rest) ← term fuel tokens
    joinedTo fuel t rest

/-- What is joined to the tree on its right by `and` and `or`. -/
def joinedTo : Nat → Tree → List Token → Except ParseError (Tree × List Token)
  | 0, _, _ => .error (.syntaxError .unexpectedEnd)
  | _ + 1, left, [] => .ok (left, [])
  | fuel + 1, left, token :: rest =>
    match token.kind with
    | .and => do
      let (right, rest) ← term fuel rest
      joinedTo fuel (.and left right) rest
    | .or => do
      let (right, rest) ← term fuel rest
      joinedTo fuel (.or left right) rest
    | _ => .ok (left, token :: rest)

end

/-- The tree of a list of tokens. -/
def ofTokens (tokens : List Token) : Except ParseError Tree :=
  if tokens.isEmpty then .error (.syntaxError .empty)
  else do
    let (t, rest) ← expression (3 * tokens.length + 3) tokens
    match rest with
    | [] => return t
    | token :: _ => .error (.syntaxError (.unexpected token))

/-- The tree of a condition. -/
def parse (condition : String) : Except ParseError Tree :=
  match scan condition with
  | .error error => .error (.syntaxError error)
  | .ok tokens => ofTokens tokens

end LogAlert.Condition
