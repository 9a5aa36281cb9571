/-
# LogAlert.Yaml.Tokens -- splitting a YAML text into tokens

`tokens` reads a text from start to end. Outside brackets, the column of a key or of an entry opens
a block collection, and a smaller column of a later token closes it. A key need not be marked: when
the mark of a value is found, the token that may be its key is looked up among the candidates
(`Candidate`), and the mark of a key is put in front of it. A candidate must lie on one line and
within 1024 characters.

If the text cannot be split further, the last token is `Token.broken`.
-/
import LogAlert.Yaml.Scalar

set_option autoImplicit false

namespace LogAlert.Yaml

/-- A token that may turn out to be a key. -/
structure Candidate where
  /-- The number of tokens before it. -/
  number : Nat
  /-- It stands where only a key can stand. -/
  required : Bool
  index : Nat
  line : Nat
  column : Nat
deriving Repr

/-- What is known while a text is split. -/
structure Splitting where
  cursor : Cursor
  tokens : Array Token
  /-- How many brackets are open. -/
  depth : Nat
  /-- The column of the innermost open block collection, -1 without one. -/
  indent : Int
  /-- The columns of the block collections around it. -/
  outer : List Int
  /-- A key may begin here without a mark. -/
  keyAllowed : Bool
  /-- At most one candidate for each number of open brackets. -/
  candidates : List (Nat × Candidate)
deriving Repr

namespace Splitting

/-- A step of the splitting may fail; what was done so far is kept. -/
abbrev Step := ExceptT Error (StateM Splitting)

/-- The start of a text. -/
def start (surrogates : Surrogates) (text : String) : Splitting :=
  ⟨.start surrogates text, #[], 0, -1, [], true, []⟩

/-- The text breaks a rule. -/
def malformed {α : Type} : Step α := throw .malformed

/-- Put a token behind the others. -/
def emit (token : Token) : Step Unit := modify fun s => { s with tokens := s.tokens.push token }

/-- Go on from another place. -/
def moveTo (c : Cursor) : Step Unit := modify fun s => { s with cursor := c }

/-- Say whether a key may begin here. -/
def allowKey (b : Bool) : Step Unit := modify fun s => { s with keyAllowed := b }

/-- Outside all brackets. -/
def inBlock : Step Bool := do return (← get).depth = 0

/-- The token that was read is no candidate any more; it must not have been required as a key. -/
def dropCandidate : Step Unit := do
  let s ← get
  match s.candidates.lookup s.depth with
  | some candidate =>
    if candidate.required then malformed
    else set { s with candidates := s.candidates.filter (·.1 ≠ s.depth) }
  | none => return

/-- The next token is a candidate, if a key may begin here. -/
def addCandidate : Step Unit := do
  let s ← get
  if s.keyAllowed then
    dropCandidate
    let c := s.cursor
    let candidate : Candidate :=
      ⟨s.tokens.size, s.depth = 0 && s.indent = c.column, c.index, c.line, c.column⟩
    modify fun s => { s with candidates := (s.depth, candidate) :: s.candidates }

/-- Candidates on an earlier line, or too far back, are given up. -/
def dropStale : Step Unit := do
  let s ← get
  let stale (k : Candidate) : Bool :=
    k.line ≠ s.cursor.line || k.index + 1024 < s.cursor.index
  if s.candidates.any fun k => stale k.2 && k.2.required then malformed
  else set { s with candidates := s.candidates.filter fun k => !stale k.2 }

/-- Close the block collections whose column is greater than the given one. -/
def closeBlocks (column : Int) : Nat → Int → List Int → Array Token → Int × List Int × Array Token
  | 0, indent, outer, tokens => (indent, outer, tokens)
  | fuel + 1, indent, outer, tokens =>
    if column < indent then
      closeBlocks column fuel (outer.head?.getD (-1)) outer.tail (tokens.push .blockEnd)
    else (indent, outer, tokens)

/-- Outside brackets, close the block collections whose column is greater than the given one. -/
def unwind (column : Int) : Step Unit := modify fun s =>
  if s.depth ≠ 0 then s
  else
    let (indent, outer, tokens) :=
      closeBlocks column (s.outer.length + 1) s.indent s.outer s.tokens
    { s with indent := indent, outer := outer, tokens := tokens }

/-- Make the column the one of the innermost collection, if it is greater than that. The result says
whether it was. -/
def indentTo (column : Nat) : Step Bool := do
  let s ← get
  if s.indent < column then
    set { s with outer := s.indent :: s.outer, indent := (column : Int) }
    return true
  else return false

/-- Open a block collection at the current column, if none is open there. -/
def openBlock (token : Token) : Step Unit := do
  if ← indentTo (← get).cursor.column then emit token

/-- Read so many characters as a token. -/
def mark (token : Token) (size : Nat) : Step Unit := do
  moveTo ((← get).cursor.advance size)
  emit token

/-! ## Space between tokens -/

/-- Behind spaces, comments and line breaks. A line break outside brackets allows a key. -/
def skipSpace : Nat → Step Unit
  | 0 => return
  | fuel + 1 => do
    let s ← get
    let c := s.cursor.skipSpaces.skipComment
    if isBreak c.next then
      set { s with cursor := c.takeBreak.2, keyAllowed := s.keyAllowed || s.depth = 0 }
      skipSpace fuel
    else moveTo c

/-- To the next token. A byte order mark at the start of the text is passed over. -/
def toNextToken : Step Unit := do
  let c := (← get).cursor
  if c.index = 0 ∧ c.next = '\ufeff' then moveTo c.step
  skipSpace (c.rest.length + 1)

/-! ## Directives, anchors and tags -/

/-- A name of letters and digits, which must not be empty. -/
def nameHere (c : Cursor) : Step (String × Cursor) :=
  match c.takeWhile isNameChar with
  | ([], _) => malformed
  | (chars, c) => return (String.ofList chars, c)

/-- A number in a directive. -/
def numberHere (c : Cursor) : Step (Nat × Cursor) :=
  match c.takeWhile Char.isDigit with
  | ([], _) => malformed
  | (chars, c) =>
    if Text.digitLimit < chars.length then throw (.scalar (.overlongNumeral chars.length))
    else return (Json.digitsNat chars, c)

/-- The bytes that are written by hexadecimal digits behind percent signs. -/
def percentBytes : Nat → Cursor → Step (List UInt8 × Cursor)
  | 0, c => return ([], c)
  | fuel + 1, c =>
    if c.next = '%' then
      match Json.hexValue? (c.peek 1), Json.hexValue? (c.peek 2) with
      | some a, some b => do
        let (more, c) ← percentBytes fuel (c.advance 3)
        return ((a * 16 + b).toUInt8 :: more, c)
      | _, _ => malformed
    else return ([], c)

/-- The characters of a tag. -/
def uriChars : Nat → Cursor → Step (List Char × Cursor)
  | 0, c => return ([], c)
  | fuel + 1, c =>
    if c.next = '%' then do
      let (octets, c) ← percentBytes (c.rest.length + 1) c
      match String.fromUTF8? ⟨octets.toArray⟩ with
      | some text =>
        let (more, c) ← uriChars fuel c
        return (text.toList ++ more, c)
      | none => malformed
    else if isUriChar c.next then do
      let (more, c') ← uriChars fuel c.step
      return (c.next :: more, c')
    else return ([], c)

/-- The characters of a tag, of which there must be some. -/
def uriHere (c : Cursor) : Step (String × Cursor) := do
  let here := isUriChar c.next
  let (chars, c) ← uriChars (c.rest.length + 1) c
  if here then return (String.ofList chars, c) else malformed

/-- An abbreviation of tags: exclamation marks around a name, or one mark. -/
def handleHere (c : Cursor) : Step (String × Cursor) :=
  if c.next ≠ '!' then malformed
  else if c.peek 1 = ' ' then return ("!", c.step)
  else
    let (name, c) := c.step.takeWhile isNameChar
    if c.next = '!' then return (String.ofList ('!' :: name ++ ['!']), c.step) else malformed

/-- What a directive says. -/
def directiveHere (c : Cursor) : Step (Directive × Cursor) := do
  let (name, c) ← nameHere c.step
  if !isSpaceOrEnd c.next then malformed
  else if name = "YAML" then
    let (major, c) ← numberHere c.skipSpaces
    if c.next ≠ '.' then malformed
    else
      let (minor, c) ← numberHere c.step
      if isSpaceOrEnd c.next then return (.version major minor, c) else malformed
  else if name = "TAG" then
    let (handle, c) ← handleHere c.skipSpaces
    if c.next ≠ ' ' then malformed
    else
      let (start, c) ← uriHere c.skipSpaces
      if isSpaceOrEnd c.next then return (.tag handle start, c) else malformed
  else return (.unknown, c.skipWhile (!isBreak ·))

/-- Read a directive, which ends open collections. -/
def readDirective : Step Unit := do
  unwind (-1)
  dropCandidate
  allowKey false
  let (directive, c) ← directiveHere (← get).cursor
  match ignoredLine c with
  | .ok c =>
    moveTo c
    emit (.directive directive)
  | .error e => throw e

/-- The characters that may stand behind the name of an anchor. -/
def endsAnchor (x : Char) : Bool := isBlankOrEnd x || x ∈ "?:,]\x7d%@".toList || x.toNat = 96

/-- Read an anchor or a reference to one. -/
def readAnchor (token : String → Token) : Step Unit := do
  addCandidate
  allowKey false
  let (name, c) ← nameHere (← get).cursor.step
  if endsAnchor c.next then
    moveTo c
    emit (token name)
  else malformed

/-- The tag that begins here. -/
def tagHere (c : Cursor) : Step (Option String × String × Cursor) := do
  let x := c.peek 1
  if x = '<' then
    let (rest, c) ← uriHere (c.advance 2)
    if c.next = '>' then return (none, rest, c.step) else malformed
  else if isBlankOrEnd x then return (none, "!", c.step)
  else
    let word := (c.rest.drop 1).takeWhile (!isSpaceOrEnd ·)
    let (handle, c) ← if '!' ∈ word then handleHere c else pure ("!", c.step)
    let (rest, c) ← uriHere c
    return (some handle, rest, c)

/-- Read a tag. -/
def readTag : Step Unit := do
  addCandidate
  allowKey false
  let (handle, rest, c) ← tagHere (← get).cursor
  if isSpaceOrEnd c.next then
    moveTo c
    emit (.tag handle rest)
  else malformed

/-! ## Marks of collections -/

/-- Read a mark that separates documents. -/
def readSeparator (token : Token) : Step Unit := do
  unwind (-1)
  dropCandidate
  allowKey false
  mark token 3

/-- Read an opening bracket. -/
def readOpening (token : Token) : Step Unit := do
  addCandidate
  modify fun s => { s with depth := s.depth + 1, keyAllowed := true }
  mark token 1

/-- Read a closing bracket. -/
def readClosing (token : Token) : Step Unit := do
  dropCandidate
  modify fun s => { s with depth := s.depth - 1, keyAllowed := false }
  mark token 1

/-- Read a comma between brackets. -/
def readFlowEntry : Step Unit := do
  allowKey true
  dropCandidate
  mark .flowEntry 1

/-- Outside brackets, a collection may be opened only where a key may begin. -/
def requireKeyAllowed : Step Unit := do
  if !(← get).keyAllowed then malformed

/-- Read the mark of an entry. -/
def readBlockEntry : Step Unit := do
  if ← inBlock then
    requireKeyAllowed
    openBlock .blockSequenceStart
  allowKey true
  dropCandidate
  mark .blockEntry 1

/-- Read the mark of a key. -/
def readKey : Step Unit := do
  let block ← inBlock
  if block then
    requireKeyAllowed
    openBlock .blockMappingStart
  allowKey block
  dropCandidate
  mark .key 1

/-- Put a token in front of the one with the given number. -/
def insertToken (number : Nat) (token : Token) : Step Unit := modify fun s =>
  { s with tokens :=
      (s.tokens.toList.take number ++ token :: s.tokens.toList.drop number).toArray }

/-- Read the mark of a value. If a candidate stands before it, that is the key. -/
def readValue : Step Unit := do
  let s ← get
  match s.candidates.lookup s.depth with
  | some key =>
    set { s with candidates := s.candidates.filter (·.1 ≠ s.depth) }
    insertToken key.number .key
    if s.depth = 0 then
      if ← indentTo key.column then insertToken key.number .blockMappingStart
    allowKey false
  | none =>
    let block ← inBlock
    if block then
      requireKeyAllowed
      openBlock .blockMappingStart
    allowKey block
    dropCandidate
  mark .value 1

/-! ## Scalars -/

/-- Read a block scalar. -/
def readBlockScalar (folded : Bool) : Step Unit := do
  allowKey true
  dropCandidate
  let s ← get
  match blockScalar folded s.indent s.cursor with
  | .ok (text, c) =>
    moveTo c
    emit (.scalar text false)
  | .error e => throw e

/-- Read a quoted scalar. -/
def readQuoted : Step Unit := do
  addCandidate
  allowKey false
  match quotedScalar (← get).cursor with
  | .ok (text, c) =>
    moveTo c
    emit (.scalar text false)
  | .error e => throw e

/-- Read a plain scalar. -/
def readPlain : Step Unit := do
  addCandidate
  let s ← get
  let scalar := plainScalar (s.depth ≠ 0) (s.indent + 1) s.cursor
  allowKey scalar.atLineStart
  moveTo scalar.cursor
  emit (.scalar (String.ofList scalar.text) true)

/-- A plain scalar may begin here. -/
def startsPlain (depth : Nat) (c : Cursor) : Bool :=
  let x := c.next
  let marks := "-?:,[]\x7b\x7d#&*!|>'\"%@".toList
  (!isBlankOrEnd x && x ∉ marks && x.toNat ≠ 96) ||
    (!isBlankOrEnd (c.peek 1) && (x = '-' || (depth = 0 && (x = '?' || x = ':'))))

/-! ## Tokens -/

/-- Read the next token. The result says whether the text has ended. -/
def readToken : Step Bool := do
  toNextToken
  dropStale
  unwind (← get).cursor.column
  let s ← get
  let c := s.cursor
  let x := c.next
  let alone := isBlankOrEnd (c.peek 1)
  let block := s.depth = 0
  if x = endMark then
    unwind (-1)
    dropCandidate
    emit .streamEnd
    return true
  if x = '%' ∧ c.column = 0 then readDirective
  else if c.column = 0 ∧ c.atMark '-' then readSeparator .documentStart
  else if c.column = 0 ∧ c.atMark '.' then readSeparator .documentEnd
  else if x = '[' then readOpening .flowSequenceStart
  else if x = '\x7b' then readOpening .flowMappingStart
  else if x = ']' then readClosing .flowSequenceEnd
  else if x = '\x7d' then readClosing .flowMappingEnd
  else if x = ',' then readFlowEntry
  else if x = '-' ∧ alone then readBlockEntry
  else if x = '?' ∧ (block = false ∨ alone) then readKey
  else if x = ':' ∧ (block = false ∨ alone) then readValue
  else if x = '*' then readAnchor .alias
  else if x = '&' then readAnchor .anchor
  else if x = '!' then readTag
  else if x = '|' ∧ block then readBlockScalar false
  else if x = '>' ∧ block then readBlockScalar true
  else if x = '\'' ∨ x = '"' then readQuoted
  else if startsPlain s.depth c then readPlain
  else malformed
  return false

/-- Read all tokens. Each one but the last takes a character, which bounds the fuel. -/
def readAll : Nat → Step Unit
  | 0 => malformed
  | fuel + 1 => do
    if ← readToken then return else readAll fuel

end Splitting

/-- The tokens of a text. -/
def tokens (surrogates : Surrogates) (text : String) : List Token :=
  let (result, s) :=
    (Splitting.readAll (text.length + 1)).run.run (Splitting.start surrogates text)
  match result with
  | .ok () => s.tokens.toList
  | .error e => s.tokens.toList ++ [.broken e]

end LogAlert.Yaml
