/-
# LogAlert.Condition.Token -- the words of a condition

A condition is a line of words, parentheses and blanks. `Token.scan` splits it into tokens, each
with the place where it begins, counted in characters. The keywords are recognised in any case; a
word of digits is a number; any other word is a name. A character that is none of these is an error
at its place.
-/
import LogAlert.Text.Digit
import LogAlert.Text.Quoted

set_option autoImplicit false

namespace LogAlert.Condition

/-- The kinds of tokens. -/
inductive Kind where
  | openParen
  | closeParen
  | and
  | or
  | not
  | of
  | all
  | number
  | name
deriving DecidableEq, Repr

/-- The kind as messages name it. -/
def Kind.text : Kind → String
  | .openParen => "("
  | .closeParen => ")"
  | .and => "and"
  | .or => "or"
  | .not => "not"
  | .of => "of"
  | .all => "all"
  | .number => "number"
  | .name => "name"

/-- A word or a parenthesis, and the number of characters before it. -/
structure Token where
  kind : Kind
  text : String
  position : Nat
deriving DecidableEq, Repr

/-- Why a text is no condition. -/
inductive SyntaxError where
  /-- A character is none of those that a condition may hold. -/
  | badCharacter (c : Char) (position : Nat)
  /-- There is no token. -/
  | empty
  /-- This token cannot stand here. -/
  | unexpected (token : Token)
  /-- The condition ends where a term should begin. -/
  | unexpectedEnd
  /-- A token of this kind should stand where another one stands, or none. -/
  | expected (kind : Kind) (found : Option Token)
  /-- There is no pattern behind the quantifier. -/
  | missingPattern
  /-- This token is no pattern. -/
  | invalidPattern (token : Token)
deriving DecidableEq, Repr

/-- A text between quotes, and its place. -/
def placed (text : String) (position : Nat) : String :=
  Text.quoted text ++ " at position " ++ Text.natText position

/-- The message for a text that is no condition. -/
def SyntaxError.message : SyntaxError → String
  | .badCharacter c position => "Unexpected character " ++ placed (String.ofList [c]) position
  | .empty => "Empty condition"
  | .unexpected token => "Unexpected " ++ placed token.text token.position
  | .unexpectedEnd => "Unexpected end of condition"
  | .expected kind none => "Expected " ++ Text.quoted kind.text ++ ", got end of condition"
  | .expected kind (some token) =>
    "Expected " ++ Text.quoted kind.text ++ ", got " ++ placed token.text token.position
  | .missingPattern => "Missing pattern after 'of'"
  | .invalidPattern token => "Invalid pattern " ++ placed token.text token.position

/-- A character of which words are made. -/
def isWordChar (c : Char) : Bool :=
  c.isAlphanum || c = '_' || c = '.' || c = '*' || c = '?' || c = '-'

/-- The keywords, in lower case. -/
def keywords : List (String × Kind) :=
  [("and", .and), ("or", .or), ("not", .not), ("of", .of), ("all", .all)]

/-- The kind of a word. -/
def wordKind (word : List Char) : Kind :=
  match keywords.lookup (String.ofList (word.map Char.toLower)) with
  | some kind => kind
  | none => if word.all Char.isDigit then .number else .name

/-- The token of a word that ends before `position`; no token for the empty word. -/
def endWord (word : List Char) (position : Nat) : List Token :=
  if word.isEmpty then []
  else [⟨wordKind word, String.ofList word, position - word.length⟩]

/-- The tokens of the characters from `position` on, of which `word` is the word just before it. -/
def scanFrom (position : Nat) (word : List Char) : List Char → Except SyntaxError (List Token)
  | [] => .ok (endWord word position)
  | c :: rest =>
    if isWordChar c then scanFrom (position + 1) (word ++ [c]) rest
    else if c = '(' ∨ c = ')' then do
      let kind := if c = '(' then Kind.openParen else Kind.closeParen
      let tokens ← scanFrom (position + 1) [] rest
      return endWord word position ++ ⟨kind, String.ofList [c], position⟩ :: tokens
    else if Text.isBlank c then do
      let tokens ← scanFrom (position + 1) [] rest
      return endWord word position ++ tokens
    else .error (.badCharacter c position)

/-- The tokens of a condition. -/
def scan (condition : String) : Except SyntaxError (List Token) :=
  scanFrom 0 [] condition.toList

end LogAlert.Condition
