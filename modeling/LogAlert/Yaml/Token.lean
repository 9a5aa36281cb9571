/-
# LogAlert.Yaml.Token -- the tokens of a YAML document

A YAML text is first split into tokens. Indentation becomes visible as tokens that open and close
block collections, and a key is marked by a token in front of it, also where the text has no mark.
`Cursor` is a place in the text, with the line and column that indentation depends on.
-/
import LogAlert.Yaml.Surrogates

set_option autoImplicit false

namespace LogAlert.Yaml

/-- Why a text is not read as YAML. -/
inductive Error where
  /-- The text breaks a rule of YAML, or has a tag or shape that is not supported. -/
  | malformed
  /-- A scalar has the form of a number, date or character that does not exist. -/
  | scalar (fault : Fault)
deriving DecidableEq, Repr

/-- What a directive says. -/
inductive Directive where
  | version (major minor : Nat)
  | tag (handle start : String)
  | unknown
deriving DecidableEq, Repr

/-- A token of a YAML text. -/
inductive Token where
  | directive (content : Directive)
  | documentStart
  | documentEnd
  | streamEnd
  | blockSequenceStart
  | blockMappingStart
  | blockEnd
  | flowSequenceStart
  | flowSequenceEnd
  | flowMappingStart
  | flowMappingEnd
  | blockEntry
  | flowEntry
  | key
  | value
  | alias (name : String)
  | anchor (name : String)
  /-- A tag: the name of an abbreviation, if there is one, and what stands behind it. -/
  | tag (handle : Option String) (rest : String)
  /-- A scalar, and whether it is written without quotes and not as a block. -/
  | scalar (text : String) (plain : Bool)
  /-- The text cannot be split into tokens from here on. -/
  | broken (error : Error)
deriving DecidableEq, Repr

/-- The character that stands for the end of the text. No text holds it. -/
def endMark : Char := '\x00'

/-- Line breaks. -/
def isBreak (c : Char) : Bool :=
  c = '\r' || c = '\n' || c = '\x85' || c = '\u2028' || c = '\u2029'

/-- Line breaks and the end of the text. -/
def isBreakOrEnd (c : Char) : Bool := isBreak c || c = endMark

/-- Spaces, line breaks and the end of the text. -/
def isSpaceOrEnd (c : Char) : Bool := isBreakOrEnd c || c = ' '

/-- Spaces, tabs, line breaks and the end of the text. -/
def isBlankOrEnd (c : Char) : Bool := isSpaceOrEnd c || c = '\t'

/-- ASCII letters, digits, hyphen and underscore. -/
def isNameChar (c : Char) : Bool := c.isAlphanum || c = '-' || c = '_'

/-- The characters of which tags are made. -/
def isUriChar (c : Char) : Bool := isNameChar c || c ∈ ";/?:@&=+$,.!~*'()[]%".toList

/-- A character that a YAML text may hold. -/
def isAllowed (c : Char) : Bool :=
  let n := c.toNat
  n = 9 || n = 10 || n = 13 || (0x20 ≤ n && n ≤ 0x7E) || n = 0x85 || (0xA0 ≤ n && n ≤ 0xD7FF) ||
    (0xE000 ≤ n && n ≤ 0xFFFD) || 0x10000 ≤ n

/-- A place in the text, and how surrogates are read. -/
structure Cursor where
  rest : List Char
  index : Nat
  line : Nat
  column : Nat
  surrogates : Surrogates
deriving Repr, Inhabited

namespace Cursor

/-- The start of a text. -/
def start (surrogates : Surrogates) (text : String) : Cursor := ⟨text.toList, 0, 0, 0, surrogates⟩

/-- The character so many places ahead. -/
def peek (c : Cursor) (n : Nat) : Char := (c.rest[n]?).getD endMark

/-- The next character. -/
def next (c : Cursor) : Char := c.rest.head?.getD endMark

/-- One character further. The byte order mark takes no column. -/
def step (c : Cursor) : Cursor :=
  match c.rest with
  | [] => c
  | x :: rest =>
    let c := { c with rest, index := c.index + 1 }
    if isBreak x && !(x = '\r' && rest.head? = some '\n') then
      { c with line := c.line + 1, column := 0 }
    else if x = '\ufeff' then c
    else { c with column := c.column + 1 }

/-- So many characters further. -/
def advance : Nat → Cursor → Cursor
  | 0, c => c
  | n + 1, c => advance n c.step

/-- Behind the characters that pass the test, and these characters. -/
def takeWhile (test : Char → Bool) (c : Cursor) : List Char × Cursor :=
  let taken := c.rest.takeWhile test
  (taken, c.advance taken.length)

/-- Behind the characters that pass the test. -/
def skipWhile (test : Char → Bool) (c : Cursor) : Cursor := (c.takeWhile test).2

/-- Behind spaces. -/
def skipSpaces (c : Cursor) : Cursor := c.skipWhile (· = ' ')

/-- Behind the spaces that stand before the given column. -/
def skipIndent (column : Nat) (c : Cursor) : Cursor :=
  c.advance (min (column - c.column) (c.rest.takeWhile (· = ' ')).length)

/-- Behind a comment, if one begins here. -/
def skipComment (c : Cursor) : Cursor :=
  if c.next = '#' then c.skipWhile (!isBreak ·) else c

/-- The line break that begins here, and the place behind it. Breaks are line feeds, except for the
separators of lines and paragraphs, which stay as they are. -/
def takeBreak (c : Cursor) : List Char × Cursor :=
  let x := c.next
  if x = '\r' ∧ c.peek 1 = '\n' then (['\n'], c.advance 2)
  else if x = '\r' ∨ x = '\n' ∨ x = '\x85' then (['\n'], c.step)
  else if x = '\u2028' ∨ x = '\u2029' then ([x], c.step)
  else ([], c)

/-- The text begins with three such marks, alone on the line so far. -/
def atMark (mark : Char) (c : Cursor) : Bool :=
  c.next = mark && c.peek 1 = mark && c.peek 2 = mark && isBlankOrEnd (c.peek 3)

/-- The text begins with a mark that separates documents. -/
def atSeparator (c : Cursor) : Bool := c.atMark '-' || c.atMark '.'

end Cursor

end LogAlert.Yaml
