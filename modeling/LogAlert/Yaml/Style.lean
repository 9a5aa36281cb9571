/-
# LogAlert.Yaml.Style -- how a scalar is written

A scalar is written plainly if its text has the form of its type and cannot be taken for anything
else. Otherwise it stands between single quotes, or between double quotes if it has characters that
must be escaped.
-/
import LogAlert.Yaml.Page
import LogAlert.Yaml.Tag
import LogAlert.Text.Quoted

set_option autoImplicit false

namespace LogAlert.Yaml

/-- Line breaks that may stand in a written scalar. -/
def isWrittenBreak (c : Char) : Bool :=
  c = '\n' || c = '\x85' || c = '\u2028' || c = '\u2029'

/-- A character that may stand outside double quotes. -/
def isPlainChar (c : Char) : Bool :=
  let n := c.toNat
  n = 10 || (0x20 ≤ n && n ≤ 0x7E) || n = 0x85 || (0xA0 ≤ n && n ≤ 0xD7FF) ||
    (0xE000 ≤ n && n ≤ 0xFFFD && n ≠ 0xFEFF) || (0x10000 ≤ n && n < 0x10FFFF)

/-- The characters with their neighbours; the first argument is the character in front. -/
def withNeighbours (before : Option Char) : List Char → List (Option Char × Char × Option Char)
  | [] => []
  | c :: rest => (before, c, rest.head?) :: withNeighbours (some c) rest

/-- There is no such neighbour, or it is blank. -/
def isBlankNeighbour (c : Option Char) : Bool := c.all isBlankOrEnd

/-- A character at this place would be taken for a mark of a block collection, a key, a comment, a
tag, a quote or the like. -/
def isIndicator (before : Option Char) (c : Char) (after : Option Char) : Bool :=
  if before.isNone then
    c ∈ "#,[]\x7b\x7d&*!|>'\"%@\x60".toList ||
      ((c = '?' || c = ':' || c = '-') && isBlankNeighbour after)
  else (c = ':' && isBlankNeighbour after) || (c = '#' && isBlankNeighbour before)

/-- Some place of the text would be taken for a mark. -/
def hasIndicators (chars : List Char) : Bool :=
  chars.take 3 == ['-', '-', '-'] || chars.take 3 == ['.', '.', '.'] ||
    (withNeighbours none chars).any fun (before, c, after) => isIndicator before c after

/-- The text holds two neighbours of which the first and the second pass the tests. -/
def hasPair (first second : Char → Bool) (chars : List Char) : Bool :=
  (chars.zip (chars.drop 1)).any fun (a, b) => first a && second b

/-- The text spans several lines. -/
def isMultiline (chars : List Char) : Bool := chars.any isWrittenBreak

/-- A text with such characters, or with a space at the end of a line, needs double quotes. -/
def needsEscapes (chars : List Char) : Bool :=
  !chars.all isPlainChar || hasPair (· = ' ') isWrittenBreak chars

/-- The text can stand between single quotes. -/
def fitsSingleQuotes (chars : List Char) : Bool :=
  !needsEscapes chars && !hasPair isWrittenBreak (· = ' ') chars

/-- The text can stand without quotes, as far as its characters are concerned. -/
def fitsPlain (chars : List Char) : Bool :=
  !needsEscapes chars && !isMultiline chars && chars.head? ≠ some ' ' &&
    chars.getLast? ≠ some ' ' && !hasIndicators chars

/-- How a scalar is written. -/
inductive Style where
  | plain
  | singleQuoted
  | doubleQuoted
deriving DecidableEq, Repr

/-- The style of a scalar of the given type; `asKey` for a key on one line with its value. -/
def Style.of (tag : Tag) (text : String) (asKey : Bool) : Style :=
  let chars := text.toList
  if implicitTag text = tag && !(asKey && (chars.isEmpty || isMultiline chars)) &&
      fitsPlain chars then .plain
  else if fitsSingleQuotes chars && !(asKey && isMultiline chars) then .singleQuoted
  else .doubleQuoted

/-! ## Writing the characters -/

/-- Split the characters into runs of spaces, runs of line breaks, single quotes and runs of
others. -/
def runs : List Char → List (List Char)
  | [] => []
  | c :: rest =>
    let kind (c : Char) : Nat :=
      if c = ' ' then 0 else if isWrittenBreak c then 1 else if c = '\'' then 2 else 3
    match runs rest with
    | [] => [[c]]
    | [] :: more => [c] :: more
    | (d :: run) :: more =>
      if kind c = kind d && c ≠ '\'' then (c :: d :: run) :: more
      else [c] :: (d :: run) :: more

namespace Page

/-- Write a text without quotes. With `split`, a line is broken at a single space behind the
width. -/
def plain (page : Page) (split : Bool) (column : Nat) (chars : List Char) : Page :=
  (runs chars).foldl (fun page run =>
    if run = [' '] && split && width < page.column then (page.indent column).begun
    else page.put run) page.space.begun

/-- Write the runs of a text between single quotes. A break that is to be read as such takes one
more line break. -/
def quotedRuns (split : Bool) (column : Nat) : Bool → List (List Char) → Page → Page
  | _, [], page => page
  | isFirst, run :: rest, page =>
    let page :=
      match run with
      | [] => page
      | c :: _ =>
        if run = [' '] && split && width < page.column && !isFirst && !rest.isEmpty then
          page.indent column
        else if isWrittenBreak c then
          let page := if c = '\n' then page.lineBreak '\n' else page
          (run.foldl lineBreak page).indent column
        else if c = '\'' then page.put ['\'', '\'']
        else page.put run
    quotedRuns split column false rest page

/-- Write a text between single quotes. -/
def singleQuoted (page : Page) (split : Bool) (column : Nat) (chars : List Char) : Page :=
  (quotedRuns split column true (runs chars) (page.mark "'")).closing "'"

/-- The letters that stand for characters behind a backslash. -/
def shortEscapes : List (Char × Char) :=
  [('\x00', '0'), ('\x07', 'a'), ('\x08', 'b'), ('\x09', 't'), ('\x0a', 'n'), ('\x0b', 'v'),
    ('\x0c', 'f'), ('\x0d', 'r'), ('\x1b', 'e'), ('"', '"'), ('\\', '\\'), ('\x85', 'N'),
    ('\u2028', 'L'), ('\u2029', 'P')]

/-- The character is written as it is between double quotes. -/
def isUnescaped (c : Char) : Bool :=
  let n := c.toNat
  (0x20 ≤ n && n ≤ 0x7E && c ≠ '"' && c ≠ '\\') ||
    (0xA0 ≤ n && n ≤ 0xD7FF && !isWrittenBreak c) || (0xE000 ≤ n && n ≤ 0xFFFD && n ≠ 0xFEFF)

/-- The escape of a character. -/
def escape (c : Char) : List Char :=
  match shortEscapes.lookup c with
  | some letter => ['\\', letter]
  | none => (Text.escapeCode c.toNat).mapIdx fun i d => if i < 2 then d else d.toUpper

/-- Continue behind a backslash on a new line. A space there is escaped, so that it counts. -/
def continued (page : Page) (column : Nat) (next : Option Char) : Page :=
  let page := ((page.put ['\\']).indent column).begun
  if next = some ' ' then page.put ['\\'] else page

/-- Write the characters between double quotes. With `split`, a line is broken in front of a space
or next to an escape behind the width, except at both ends of the text. -/
def escapedChars (split : Bool) (column : Nat) (isFirst afterEscape : Bool) :
    List Char → Page → Page
  | [], page => page
  | c :: rest, page =>
    let inside := split && !isFirst && !rest.isEmpty
    if isUnescaped c then
      let page :=
        if inside && (c = ' ' || afterEscape) && width < page.column then
          page.continued column (some c)
        else page
      escapedChars split column false false rest (page.put [c])
    else
      let page := page.put (escape c)
      let page :=
        if inside && width + 1 < page.column then page.continued column rest.head? else page
      escapedChars split column false true rest page

/-- Write a text between double quotes. -/
def doubleQuoted (page : Page) (split : Bool) (column : Nat) (chars : List Char) : Page :=
  (escapedChars split column true true chars (page.mark "\"")).closing "\""

/-- Write a text in a style. -/
def styled (page : Page) (style : Style) (split : Bool) (column : Nat) (chars : List Char) :
    Page :=
  match style with
  | .plain => page.plain split column chars
  | .singleQuoted => page.singleQuoted split column chars
  | .doubleQuoted => page.doubleQuoted split column chars

end Page

end LogAlert.Yaml
