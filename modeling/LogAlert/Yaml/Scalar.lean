/-
# LogAlert.Yaml.Scalar -- the text of a scalar

Scalars are written plainly, between quotes, or as blocks. This module reads each of the forms from
a place in the text and joins its lines. The loops take a fuel; each of their steps consumes at
least one character, so the length of the text is enough.
-/
import LogAlert.Yaml.Token
import LogAlert.Json.Read

set_option autoImplicit false

namespace LogAlert.Yaml

/-- The characters joined by a line break in a folded text: a single break becomes a space. -/
def foldedBreak (lineBreak breaks : List Char) : List Char :=
  if lineBreak ≠ ['\n'] then lineBreak ++ breaks
  else if breaks.isEmpty then [' ']
  else breaks

/-! ## Quoted scalars -/

/-- The character that a backslash and another character stand for. -/
def escapes : List (Char × Char) :=
  [('0', '\x00'), ('a', '\x07'), ('b', '\x08'), ('t', '\x09'), ('\t', '\x09'), ('n', '\x0a'),
    ('v', '\x0b'), ('f', '\x0c'), ('r', '\x0d'), ('e', '\x1b'), (' ', ' '), ('"', '"'),
    ('\\', '\\'), ('/', '/'), ('N', '\x85'), ('_', '\xa0'), ('L', '\u2028'), ('P', '\u2029')]

/-- How many hexadecimal digits follow a backslash and a letter. -/
def escapeWidths : List (Char × Nat) := [('x', 2), ('u', 4), ('U', 8)]

/-- The number written by hexadecimal digits. -/
def hexNumber (digits : List Char) : Nat :=
  Text.ofDigits 16 (digits.map fun c => (Json.hexValue? c).getD 0)

/-- The character that is read for the given code point. -/
def codePoint (surrogates : Surrogates) (n : Nat) : Except Error Char :=
  if 0x7FFFFFFF < n then .error (.scalar .beyondWord)
  else if 0x10FFFF < n then .error (.scalar .noCharacter)
  else if Surrogates.isSurrogate n then .ok (surrogates.char n)
  else .ok (Char.ofNat n)

/-- The line breaks inside a quoted scalar. No document may end between quotes. -/
def quotedBreaks : Nat → Cursor → Except Error (List Char × Cursor)
  | 0, c => .ok ([], c)
  | fuel + 1, c =>
    if c.atSeparator then .error .malformed
    else
      let c := c.skipWhile fun x => x = ' ' || x = '\t'
      if isBreak c.next then do
        let (here, c) := c.takeBreak
        let (more, c) ← quotedBreaks fuel c
        return (here ++ more, c)
      else .ok ([], c)

/-- An escape, from behind its backslash on. -/
def escaped (c : Cursor) : Except Error (List Char × Cursor) :=
  let x := c.next
  match escapes.lookup x with
  | some y => .ok ([y], c.step)
  | none =>
    match escapeWidths.lookup x with
    | some width => do
      let digits := (c.rest.drop 1).take width
      if digits.length = width ∧ digits.all fun d => (Json.hexValue? d).isSome then
        let y ← codePoint c.surrogates (hexNumber digits)
        return ([y], c.advance (width + 1))
      else .error .malformed
    | none =>
      if isBreak x then
        let c := c.takeBreak.2
        quotedBreaks (c.rest.length + 1) c
      else .error .malformed

/-- The spaces inside a quoted scalar; at the end of a line they are left out and the line break is
folded. -/
def quotedSpaces (c : Cursor) : Except Error (List Char × Cursor) :=
  let (spaces, c) := c.takeWhile fun x => x = ' ' || x = '\t'
  if c.next = endMark then .error .malformed
  else if isBreak c.next then do
    let (lineBreak, c) := c.takeBreak
    let (breaks, c) ← quotedBreaks (c.rest.length + 1) c
    return (foldedBreak lineBreak breaks, c)
  else .ok (spaces, c)

/-- The rest of a scalar between the given quotes, and the place behind it. -/
def quotedRest (quote : Char) : Nat → Cursor → Except Error (List Char × Cursor)
  | 0, _ => .error .malformed
  | fuel + 1, c =>
    let x := c.next
    if x = quote then
      if quote = '\'' ∧ c.peek 1 = '\'' then do
        let (more, c) ← quotedRest quote fuel (c.advance 2)
        return ('\'' :: more, c)
      else .ok ([], c.step)
    else if isBlankOrEnd x then do
      let (here, c) ← quotedSpaces c
      let (more, c) ← quotedRest quote fuel c
      return (here ++ more, c)
    else if quote = '"' ∧ x = '\\' then do
      let (here, c) ← escaped c.step
      let (more, c) ← quotedRest quote fuel c
      return (here ++ more, c)
    else do
      let (more, c) ← quotedRest quote fuel c.step
      return (x :: more, c)

/-- The scalar that begins with a quote. -/
def quotedScalar (c : Cursor) : Except Error (String × Cursor) := do
  let (chars, c) ← quotedRest c.next (c.rest.length + 1) c.step
  return (String.ofList chars, c)

/-! ## Plain scalars -/

/-- The characters that end a plain scalar inside brackets. -/
def flowMarks : List Char := [',', '?', '[', ']', '\x7b', '\x7d']

/-- The characters behind a colon inside brackets that make it the mark of a value. -/
def flowValueMarks : List Char := [',', '[', ']', '\x7b', '\x7d']

/-- A run of characters of a plain scalar. -/
def plainRun (inFlow : Bool) : List Char → List Char
  | [] => []
  | x :: rest =>
    let next := rest.head?.getD endMark
    if isBlankOrEnd x then []
    else if x = ':' && (isBlankOrEnd next || (inFlow && next ∈ flowValueMarks)) then []
    else if inFlow && x ∈ flowMarks then []
    else x :: plainRun inFlow rest

/-- The line breaks between the lines of a plain scalar; none if a document ends there. -/
def plainBreaks : Nat → Cursor → Option (List Char) × Cursor
  | 0, c => (some [], c)
  | fuel + 1, c =>
    if c.atSeparator then (none, c)
    else
      let c := c.skipSpaces
      if isBreak c.next then
        let (here, c) := c.takeBreak
        let (more, c) := plainBreaks fuel c
        (more.map (here ++ ·), c)
      else (some [], c)

/-- The spaces behind a run of a plain scalar, and whether a line ends in them. -/
def plainSpaces (c : Cursor) : List Char × Bool × Cursor :=
  let (spaces, c) := c.takeWhile (· = ' ')
  if isBreak c.next then
    let (lineBreak, c) := c.takeBreak
    match plainBreaks (c.rest.length + 1) c with
    | (some breaks, c) => (foldedBreak lineBreak breaks, true, c)
    | (none, c) => ([], true, c)
  else (spaces, false, c)

/-- What a plain scalar leaves behind. -/
structure PlainEnd where
  text : List Char
  /-- The scalar is followed by a line break. -/
  atLineStart : Bool
  cursor : Cursor

/-- The rest of a plain scalar behind the spaces `spaces`, in lines that are indented at least to
`indent` outside brackets. -/
def plainRest (inFlow : Bool) (indent : Int) :
    Nat → List Char → Bool → Cursor → PlainEnd
  | 0, _, atLineStart, c => ⟨[], atLineStart, c⟩
  | fuel + 1, spaces, atLineStart, c =>
    let run := if c.next = '#' then [] else plainRun inFlow c.rest
    if run.isEmpty then ⟨[], atLineStart, c⟩
    else
      let (more, lineEnd, c) := plainSpaces (c.advance run.length)
      if more.isEmpty ∨ c.next = '#' ∨ (inFlow = false ∧ (c.column : Int) < indent) then
        ⟨spaces ++ run, lineEnd, c⟩
      else
        let rest := plainRest inFlow indent fuel more lineEnd c
        { rest with text := spaces ++ run ++ rest.text }

/-- The plain scalar that begins here. -/
def plainScalar (inFlow : Bool) (indent : Int) (c : Cursor) : PlainEnd :=
  plainRest inFlow indent (c.rest.length + 1) [] false c

/-! ## Block scalars -/

/-- What becomes of the line breaks at the end of a block scalar. -/
inductive Chomping where
  | strip
  | clip
  | keep
deriving DecidableEq, Repr

/-- The sign that says what becomes of the last line breaks. -/
def chompingSign? (x : Char) : Option Chomping :=
  if x = '+' then some .keep else if x = '-' then some .strip else none

/-- The digit that says how far a block is indented. -/
def indentDigit? (x : Char) : Option Nat := if x.isDigit then some (x.toNat - 48) else none

/-- The signs behind the mark of a block scalar, in either order. -/
def blockSigns (c : Cursor) : Except Error (Chomping × Option Nat × Cursor) := do
  let (chomping, increment, c) :=
    match chompingSign? c.next with
    | some chomping =>
      match indentDigit? (c.peek 1) with
      | some n => (chomping, some n, c.advance 2)
      | none => (chomping, none, c.step)
    | none =>
      match indentDigit? c.next with
      | some n =>
        match chompingSign? (c.peek 1) with
        | some chomping => (chomping, some n, c.advance 2)
        | none => (.clip, some n, c.step)
      | none => (.clip, none, c)
  if increment = some 0 then .error .malformed
  else if isSpaceOrEnd c.next then return (chomping, increment, c)
  else .error .malformed

/-- The rest of a line that holds nothing but a comment. -/
def ignoredLine (c : Cursor) : Except Error Cursor :=
  let c := c.skipSpaces.skipComment
  if isBreakOrEnd c.next then .ok c.takeBreak.2 else .error .malformed

/-- The empty lines before the first line of a block, and the widest indentation among them and that
line. -/
def blockIndentation : Nat → Nat → Cursor → List Char × Nat × Cursor
  | 0, widest, c => ([], widest, c)
  | fuel + 1, widest, c =>
    let c := c.skipSpaces
    let widest := max widest c.column
    if isBreak c.next then
      let (here, c) := c.takeBreak
      let (more, widest, c) := blockIndentation fuel widest c
      (here ++ more, widest, c)
    else ([], widest, c)

/-- The empty lines before the next line of a block with the given indentation. -/
def blockBreaks (indent : Nat) : Nat → Cursor → List Char × Cursor
  | 0, c => ([], c)
  | fuel + 1, c =>
    let c := c.skipIndent indent
    if isBreak c.next then
      let (here, c) := c.takeBreak
      let (more, c) := blockBreaks indent fuel c
      (here ++ more, c)
    else ([], c)

/-- A space or a tab. -/
def isSpaceOrTab (x : Char) : Bool := x = ' ' || x = '\t'

/-- The lines of a block: the joined text, the last line break, the empty lines at the end, and the
place behind them. `breaks` are the empty lines before the next line. -/
def blockLines (folded : Bool) (indent : Nat) :
    Nat → List Char → Cursor → List Char × List Char × List Char × Cursor
  | 0, breaks, c => ([], [], breaks, c)
  | fuel + 1, breaks, c =>
    if c.column = indent ∧ c.next ≠ endMark then
      let leading := isSpaceOrTab c.next
      let (line, c) := c.takeWhile (!isBreak ·)
      let (lineBreak, c) := c.takeBreak
      let (after, c) := blockBreaks indent (c.rest.length + 1) c
      if c.column = indent ∧ c.next ≠ endMark then
        let joint :=
          if folded ∧ lineBreak = ['\n'] ∧ leading = false ∧ isSpaceOrTab c.next = false then
            (if after.isEmpty then [' '] else [])
          else lineBreak
        let (more, last, final, c) := blockLines folded indent fuel after c
        (breaks ++ line ++ joint ++ more, last, final, c)
      else (breaks ++ line, lineBreak, after, c)
    else ([], [], breaks, c)

/-- The block scalar that begins with its mark, inside a block of the given indentation. -/
def blockScalar (folded : Bool) (outer : Int) (c : Cursor) : Except Error (String × Cursor) := do
  let (chomping, increment, c) ← blockSigns c.step
  let c ← ignoredLine c
  let least := max (outer + 1).toNat 1
  let (indent, breaks, c) :=
    match increment with
    | none =>
      let (breaks, widest, c) := blockIndentation (c.rest.length + 1) 0 c
      (max least widest, breaks, c)
    | some n =>
      let indent := least + n - 1
      let (breaks, c) := blockBreaks indent (c.rest.length + 1) c
      (indent, breaks, c)
  let (text, last, final, c) := blockLines folded indent (c.rest.length + 1) breaks c
  let text := match chomping with
    | .strip => text
    | .clip => text ++ last
    | .keep => text ++ last ++ final
  return (String.ofList text, c)

end LogAlert.Yaml
