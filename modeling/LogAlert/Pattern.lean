/-
# LogAlert.Pattern -- wildcard patterns

In a pattern `*` stands for any run of characters, `?` for any one character, and every other
character for itself. A pattern matches whole texts (`Pattern.matchesText`), which may also end in a
line break that the pattern does not mention. Two settings differ between the uses of patterns, and
are fields of `Pattern.Reading`: which characters are taken for equal, and whether a wildcard may
stand for a line break.

A pattern for values that has no wildcards matches the texts that are equal to it
(`Pattern.matchesValue`).
-/
import LogAlert.Text.Case

set_option autoImplicit false

namespace LogAlert

namespace Pattern

/-- One element of a pattern. -/
inductive Piece where
  /-- Any characters, or none. -/
  | run
  /-- Any one character. -/
  | one
  /-- The character itself. -/
  | char (c : Char)
deriving DecidableEq, Repr

/-- The meaning of one character of a pattern. -/
def piece (c : Char) : Piece :=
  if c = '*' then .run else if c = '?' then .one else .char c

/-- The elements of a pattern. -/
def pieces (pattern : String) : List Piece := pattern.toList.map piece

/-- The pattern has a wildcard. -/
def hasWildcards (pattern : String) : Bool := pattern.toList.any fun c => c = '*' || c = '?'

/-- How a pattern is read: by what key characters are compared, which characters a wildcard may
stand for, and which rests of a text may follow the matched part. -/
structure Reading where
  key : Char → Char
  wild : Char → Bool
  rest : List Char → Bool

/-- The text ends here, or before its last line break. -/
def atLineEnd (chars : List Char) : Bool := chars == [] || chars == ['\n']

/-- Names are matched within one line, and exactly. -/
def ofName : Reading := ⟨id, fun c => c ≠ '\n', atLineEnd⟩

/-- Values are matched across lines, with or without regard to case. -/
def ofValue (caseSensitive : Bool) : Reading :=
  ⟨if caseSensitive then id else Text.foldKey, fun _ => true, atLineEnd⟩

/-- What is left of the characters when as many as one likes of the leading ones that a wildcard
may stand for are taken away. -/
def remainders (wild : Char → Bool) : List Char → List (List Char)
  | [] => [[]]
  | c :: rest => (c :: rest) :: (if wild c then remainders wild rest else [])

/-- The pieces match the characters from their start up to a permitted rest. -/
def matchesPieces (reading : Reading) : List Piece → List Char → Bool
  | [], chars => reading.rest chars
  | .run :: pieces, chars => (remainders reading.wild chars).any (matchesPieces reading pieces)
  | .one :: pieces, chars => match chars with
    | [] => false
    | c :: rest => reading.wild c && matchesPieces reading pieces rest
  | .char p :: pieces, chars => match chars with
    | [] => false
    | c :: rest => reading.key p == reading.key c && matchesPieces reading pieces rest

/-- The pattern matches the text. -/
def matchesText (reading : Reading) (pattern text : String) : Bool :=
  matchesPieces reading (pieces pattern) text.toList

/-- A value matches a pattern: by the wildcards if there are any, and else by equality of the whole
texts, without regard to case unless asked for. -/
def matchesValue (caseSensitive : Bool) (pattern text : String) : Bool :=
  if hasWildcards pattern then matchesText (ofValue caseSensitive) pattern text
  else if caseSensitive then text == pattern
  else Text.lower text == Text.lower pattern

/-- Characters that have a meaning of their own in regular expressions. -/
def regexSpecials : List Char :=
  "()[]\x7b\x7d?*+-|^$\\.&~# \t\n\r\x0b\x0c".toList

/-- One character of a pattern as part of a regular expression. -/
def regexPiece (c : Char) : List Char :=
  match piece c with
  | .run => ['.', '*']
  | .one => ['.']
  | .char c => if c ∈ regexSpecials then ['\\', c] else [c]

/-- The pattern as a regular expression for whole texts. -/
def regexText (pattern : String) : String :=
  String.ofList ('^' :: pattern.toList.flatMap regexPiece ++ ['$'])

end Pattern

end LogAlert
