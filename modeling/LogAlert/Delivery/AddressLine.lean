/-
# LogAlert.Delivery.AddressLine -- reading lines of addresses

A line of addresses is read generously. Names and mailboxes may stand in double quotes, remarks between
parentheses count as blanks, obsolete ways of writing are understood, and an entry that cannot be
understood becomes the address without any part. What is tried at each place is what
`Trouble.misfit` tells apart from the lines that cannot be read at all; these are few, and most of
them end in the middle of an address.

A word of an address may be an encoded word (`EncodedWord`). A mailbox that goes on behind one is read
once more from what the word means, whatever that has in it.

Reading takes two steps. `Entry` is what stands in the line, piece by piece; `Entry.meant` are the
addresses that this stands for.

Loops are bounded by the length of the line, of which each turn reads a character.
-/
import LogAlert.Delivery.Address
import LogAlert.Delivery.EncodedWord

set_option autoImplicit false

namespace LogAlert.Delivery.AddressLine

open Text (CodePoint)

open EncodedWord (isSpace)

/-- Why nothing was read. -/
inductive Trouble where
  /-- Something else stands here, as which it may be read. -/
  | misfit
  /-- The line cannot be read. -/
  | fault (cause : Fault)
deriving Repr

/-- What is read, if it can be. -/
abbrev Reading := Except Trouble

/-- Read something else if this does not fit. -/
def Reading.orElse {α : Type} (first : Reading α) (second : Unit → Reading α) : Reading α :=
  match first with
  | .error .misfit => second ()
  | first => first

/-- The line ends where something should begin. -/
def cutShort {α : Type} : Reading α := .error (.fault .addressCutShort)

/-! ## Characters -/

/-- The characters with a meaning of their own. -/
def specials : List CodePoint := CodePoint.ofText "()<>@,:;.\\\"[]"

/-- No word goes on with this character. -/
def endsWord (c : CodePoint) : Bool := c ∈ specials || isSpace c

/-- No name goes on with this character. -/
def endsName (c : CodePoint) : Bool := c ∈ specials && !(c = '.' || c = '"' || c = '(')

/-- No mailbox goes on with this character. -/
def endsMailbox (c : CodePoint) : Bool := c ≠ '\\' && endsName c

/-- The line begins with one of these characters. -/
def startsWith (chars : CodePoint → Bool) (line : List CodePoint) : Bool := line.head?.any chars

/-! ## Blanks and words -/

variable (charsets : Charsets)

/-- Where between words the next character stands. -/
inductive Place where
  | between
  /-- Behind a blank. -/
  | blank
  /-- In a remark, inside so many others. -/
  | remark (depth : Nat)
  /-- Behind a backslash in a remark. -/
  | remarkEscape (depth : Nat)

/-- What stands behind blanks and remarks. A remark that is open at the end of the line is closed
there. -/
def behindBlanks : Place → List CodePoint → List CodePoint
  | .between, c :: rest =>
    if isSpace c then behindBlanks .blank rest
    else if c = '(' then behindBlanks (.remark 0) rest
    else c :: rest
  | .blank, c :: rest =>
    if c.isBlank then behindBlanks .blank rest
    else if c = '(' then behindBlanks (.remark 0) rest
    else c :: rest
  | .remark depth, c :: rest =>
    if c = '(' then behindBlanks (.remark (depth + 1)) rest
    else if c = '\\' then behindBlanks (.remarkEscape depth) rest
    else if c = ')' then
      match depth with
      | 0 => behindBlanks .between rest
      | depth + 1 => behindBlanks (.remark depth) rest
    else behindBlanks (.remark depth) rest
  | .remarkEscape depth, _ :: rest => behindBlanks (.remark depth) rest
  | _, [] => []

/-- Whether the line begins with blanks or remarks, and what stands behind them. -/
def skipBlanks (line : List CodePoint) : Bool × List CodePoint :=
  (startsWith (fun c => isSpace c || c = '(') line, behindBlanks .between line)

/-- A word and the blanks around it. -/
structure Word where
  isBlankBefore : Bool
  /-- There are none if the line ends behind an opening quote. -/
  chars : Option (List CodePoint)
  isBlankBehind : Bool
deriving DecidableEq, Repr

/-- What a decoded word says: runs of blanks are single ones. The first argument says that a blank
precedes. -/
def spaced : Bool → List CodePoint → List CodePoint
  | _, [] => []
  | isBehindBlank, c :: rest =>
    if isSpace c then if isBehindBlank then spaced true rest else .char ' ' :: spaced true rest
    else if isBehindBlank && c.isBlank then spaced true rest
    else c :: spaced false rest

/-- The characters up to the next blank or one of these. The first argument says that a backslash
precedes. -/
def escapedUpTo (ends : List CodePoint) : Bool → List CodePoint → List CodePoint × List CodePoint
  | _, [] => ([], [])
  | isEscaped, c :: rest =>
    if isSpace c then ([], c :: rest)
    else if !isEscaped && c = '\\' then escapedUpTo ends true rest
    else if !isEscaped && c ∈ ends then ([], c :: rest)
    else let (chars, behind) := escapedUpTo ends false rest; (c :: chars, behind)

/-- The characters up to a closing quote, and what stands behind it. -/
def quoted (line : List CodePoint) : List CodePoint × List CodePoint :=
  let (chars, rest) :=
    EncodedWord.text charsets (· = .char '"') (escapedUpTo ['"'] false) line.length false line
  (chars, rest.tail)

/-- A word, which may stand between quotes. -/
def word (line : List CodePoint) : Option (Word × List CodePoint) :=
  let (before, line) := skipBlanks line
  match line with
  | [] => none
  | .char '"' :: rest =>
    let (chars, behind) := quoted charsets rest
    let (isBlankBehind, behind) := skipBlanks behind
    some (⟨before, if rest.isEmpty then none else some chars, isBlankBehind⟩, behind)
  | c :: _ =>
    if c ∈ specials then none
    else
      let (chars, behind) :=
        match EncodedWord.read charsets line with
        | some (meaning, behind) => (spaced false meaning, behind)
        | none => line.span fun c => !endsWord c
      let (isBlankBehind, behind) := skipBlanks behind
      some (⟨before, some chars, isBlankBehind⟩, behind)

/-- A piece of a name or a mailbox. -/
inductive Piece where
  | word (word : Word)
  /-- Blanks that belong to no word. -/
  | blank
  | point
  | backslash
deriving DecidableEq, Repr

/-- The pieces up to a character that ends them. -/
def pieces (ends : CodePoint → Bool) : Nat → List CodePoint → List Piece × List CodePoint
  | bound + 1, c :: rest =>
    if ends c then ([], c :: rest)
    else
      let (piece, behind) :=
        if c = '.' then (.point, rest)
        else if c = '\\' then (.backslash, rest)
        else
          match word charsets (c :: rest) with
          | some (word, behind) => (.word word, behind)
          | none => (.blank, (skipBlanks (c :: rest)).2)
      let (others, behind) := pieces ends bound behind
      (piece :: others, behind)
  | _, line => ([], line)

/-- The pieces of a name. -/
def name (line : List CodePoint) : List Piece × List CodePoint :=
  pieces charsets endsName line.length line

/-- Words with points between them. The first argument says that a word must come next. -/
def isDotted : Bool → List CodePoint → Bool
  | mustCome, [] => !mustCome
  | mustCome, c :: rest => if c = '.' then !mustCome && isDotted true rest else isDotted false rest

/-- An encoded word, or words without quotes and with points between them; but no blanks before. -/
def dottedWords (line : List CodePoint) : Option (List CodePoint × List CodePoint) :=
  match EncodedWord.read charsets line with
  | some found => some found
  | none =>
    let (chars, rest) := line.span fun c => c = .char '.' || !endsWord c
    if isDotted true chars then some (chars, rest) else none

/-- A word without quotes. -/
def plainWord (line : List CodePoint) : Option (List CodePoint × List CodePoint) :=
  let start := (skipBlanks line).2
  match EncodedWord.read charsets start with
  | some found => some found
  | none =>
    let (chars, rest) := start.span fun c => !endsWord c
    if chars.isEmpty then none else some (chars, rest)

/-! ## Mailboxes and domains -/

/-- What stands for a mailbox. -/
inductive Mailbox where
  /-- Characters; none if there is nothing in a word. -/
  | plain (chars : Option (List CodePoint))
  | parts (pieces : List Piece)
deriving DecidableEq, Repr

namespace Mailbox

/-- A mailbox that is read piece by piece. -/
def ofPieces (line : List CodePoint) : Reading (Mailbox × List CodePoint) :=
  let (pieces, rest) := pieces charsets endsMailbox line.length line
  if pieces = [] ∨ pieces = [.blank] then .error (.fault .addressEmpty)
  else .ok (.parts pieces, rest)

/-- A mailbox: one word, or words with points between them. If it goes on behind these, all of it is
read again, piece by piece, with what they say in their place. -/
def ofLine (line : List CodePoint) : Reading (Mailbox × List CodePoint) :=
  let start := (skipBlanks line).2
  let whole := fun (said : List CodePoint) (meaning : Option (List CodePoint)) rest =>
    let behind := (skipBlanks rest).2
    if startsWith (fun c => !endsMailbox c) behind then
      ofPieces charsets (line.take (line.length - start.length) ++ said ++ rest)
    else .ok (.plain meaning, behind)
  match start with
  | [] => if line.isEmpty then cutShort else .error .misfit
  | .char '"' :: rest =>
    let (chars, behind) := quoted charsets rest
    whole (Address.inQuotes chars) (if rest.isEmpty then none else some chars) behind
  | c :: _ =>
    match dottedWords charsets start with
    | some (chars, rest) =>
      whole chars (if chars.isEmpty then none else some (spaced false chars)) rest
    | none => if endsMailbox c then .error .misfit else ofPieces charsets line

end Mailbox

/-- A domain behind an opening bracket. There is none if the line ends before the bracket is
closed. -/
def literal (line : List CodePoint) : Reading (Option (List CodePoint) × List CodePoint) :=
  if line.isEmpty then .ok (none, [])
  else
    let start := if startsWith isSpace line then line.dropWhile CodePoint.isBlank else line
    if start.isEmpty then .error (.fault (.unassigned "pos"))
    else
      let (chars, rest) := escapedUpTo ['[', ']'] false start
      match if startsWith isSpace rest then rest.dropWhile CodePoint.isBlank else rest with
      | [] => .ok (none, [])
      | .char ']' :: rest =>
        let inside := chars.filter (!CodePoint.isBlank ·)
        .ok (some (.char '[' :: inside ++ [.char ']']), (skipBlanks rest).2)
      | _ => .error .misfit

/-- Further words of a domain, each with a point before it. -/
def furtherWords : Nat → List CodePoint → Reading (List CodePoint × List CodePoint)
  | bound + 1, .char '.' :: rest =>
    match plainWord charsets rest with
    | none => .error .misfit
    | some (chars, rest) => do
      let (others, rest) ← furtherWords bound (skipBlanks rest).2
      return (.char '.' :: chars ++ others, rest)
  | _, line => .ok ([], line)

/-- A domain. There is none if it is in a bracket that is open at the end of the line. -/
def domain (line : List CodePoint) : Reading (Option (List CodePoint) × List CodePoint) :=
  let start := (skipBlanks line).2
  if line.isEmpty then cutShort
  else if start.isEmpty then .error .misfit
  else if startsWith (· = .char '[') start then literal start.tail
  else
    match (dottedWords charsets start).or (plainWord charsets start) with
    | none => .error .misfit
    | some (chars, rest) =>
      let rest := (skipBlanks rest).2
      if startsWith (· = .char '@') rest then .error .misfit
      else do
        let (others, rest) ← furtherWords charsets rest.length rest
        return (some ((chars ++ others).filter (!CodePoint.isBlank ·)), rest)

/-- A mailbox and its domain, if it has one. -/
structure Direct where
  mailbox : Mailbox
  domain : List CodePoint
deriving DecidableEq, Repr

/-- A mailbox, and a domain behind it. -/
def direct (line : List CodePoint) : Reading (Direct × List CodePoint) := do
  match ← Mailbox.ofLine charsets line with
  | (mailbox, .char '@' :: rest) =>
    match ← domain charsets rest with
    | (some domain, rest) => return (⟨mailbox, domain⟩, rest)
    | (none, _) => throw (.fault (.noOperation "InvalidHeaderDefect" "all_defects"))
  | (mailbox, rest) => return (⟨mailbox, []⟩, rest)

/-! ## Addresses -/

/-- What stands behind blanks and commas. -/
def behindCommas : Nat → List CodePoint → List CodePoint
  | bound + 1, c :: rest =>
    if c = ',' then behindCommas bound rest
    else if isSpace c || c = '(' then behindCommas bound (skipBlanks (c :: rest)).2
    else c :: rest
  | _, line => line

/-- The rest of a route, up to its colon. -/
def furtherRoute : Nat → List CodePoint → Reading (List CodePoint)
  | _, .char ':' :: rest => .ok rest
  | bound + 1, .char ',' :: rest =>
    if rest.isEmpty then .error .misfit
    else
      match (skipBlanks rest).2 with
      | [] => cutShort
      | .char '@' :: rest => do furtherRoute bound (← domain charsets rest).2
      | rest => furtherRoute bound rest
  | _, _ => .error .misfit

/-- A route: domains over which mail once was sent, and a colon. -/
def route (line : List CodePoint) : Reading (List CodePoint) :=
  match behindCommas line.length line with
  | .char '@' :: rest => do
    let (_, rest) ← domain charsets rest
    furtherRoute charsets rest.length rest
  | _ => .error .misfit

/-- What stands between angle brackets, which may be nothing. The closing bracket may be missing. -/
def bracketed : List CodePoint → Reading (Option Direct × List CodePoint)
  | [.char '<'] => cutShort
  | .char '<' :: .char '>' :: rest => .ok (none, rest)
  | .char '<' :: rest => do
    let routed := fun () => do direct charsets (← route charsets rest)
    let (address, rest) ← Reading.orElse (direct charsets rest) routed
    let rest := if startsWith (· = .char '>') rest then rest.tail else rest
    return (some address, (skipBlanks rest).2)
  | _ => .error .misfit

/-- What stands for an address. -/
structure Written where
  name : Option (List Piece)
  direct : Option Direct
deriving DecidableEq, Repr

/-- An address between angle brackets, with a name before it if there is one. -/
def named (line : List CodePoint) : Reading (Written × List CodePoint) :=
  let (before, line) := skipBlanks line
  match line with
  | [] => .error .misfit
  | .char '<' :: _ => do
    let (direct, rest) ← bracketed charsets line
    return (⟨none, direct⟩, rest)
  | c :: _ =>
    if endsName c then .error .misfit
    else
      let (name, rest) := name charsets line
      if rest.isEmpty then .error .misfit
      else if before && name.head? = some .point then .error (.fault (.noParts "ValueTerminal"))
      else do
        let (direct, rest) ← bracketed charsets rest
        return (⟨some name, direct⟩, rest)

/-- An address. -/
def single (line : List CodePoint) : Reading (Written × List CodePoint) :=
  (named charsets line).orElse fun () => do
    let (direct, rest) ← direct charsets line
    return (⟨none, some direct⟩, rest)

/-! ## Lists of addresses -/

/-- What stands behind something that is no address, up to one of the characters. -/
def behindStray (ends : List CodePoint) : Nat → List CodePoint → List CodePoint
  | bound + 1, c :: rest =>
    if c ∈ ends then c :: rest
    else if endsName c then behindStray ends bound rest
    else behindStray ends bound (name charsets (c :: rest)).2
  | _, line => line

/-- Items with commas between them, up to one of the characters. `stray` stands for an item that
cannot be read, and `spoil` is applied to those that have something behind them. -/
def listed {α : Type} (item : List CodePoint → Reading (α × List CodePoint)) (stray : α)
    (spoil : α → α) (ends : List CodePoint) : Nat → List CodePoint → Except Fault (List α × List CodePoint)
  | bound + 1, c :: line => do
    let goesOn := startsWith (· ∉ .char ',' :: ends)
    if c ∈ ends then return ([], c :: line)
    let (found, rest) ←
      match item (c :: line) with
      | .ok (found, rest) => pure ([if goesOn rest then spoil found else found], rest)
      | .error (.fault cause) => throw cause
      | .error .misfit =>
        let rest := (skipBlanks (c :: line)).2
        pure (if goesOn rest then [stray] else [], rest)
    let rest := behindStray charsets (.char ',' :: ends) rest.length rest
    let (others, rest) ←
      listed item stray spoil ends bound (if startsWith (· = .char ',') rest then rest.tail else rest)
    return (found ++ others, rest)
  | _, line => return ([], line)

/-- What stands for an entry of a line of addresses. There is nothing to read in an entry, or in a
member of a group, that is no address. -/
inductive Entry where
  | one (written : Option Written)
  | group (name : List Piece) (members : List (Option Written))
  /-- A group with something behind it. -/
  | spoiledGroup (name : List Piece)
deriving DecidableEq, Repr

namespace Entry

/-- A group: its name, a colon, and its members up to a semicolon. -/
def ofGroup (line : List CodePoint) : Reading (Entry × List CodePoint) :=
  match name charsets line with
  | (name, .char ':' :: .char ';' :: rest) => .ok (.group name [], rest)
  | (name, .char ':' :: rest) => do
    let rest := (skipBlanks rest).2
    let member := fun line => (single charsets line).map fun (written, rest) => (some written, rest)
    let (members, rest) ←
      (listed charsets member none id [.char ';'] rest.length rest).mapError .fault
    return (.group name members, (skipBlanks rest.tail).2)
  | _ => .error .misfit

/-- An entry. -/
def ofLine (line : List CodePoint) : Reading (Entry × List CodePoint) :=
  (ofGroup charsets line).orElse fun () => do
    let (written, rest) ← single charsets line
    return (.one (some written), rest)

/-- The entry with something behind it. -/
def spoiled : Entry → Entry
  | .group name _ => .spoiledGroup name
  | entry => entry

end Entry

/-! ## What the pieces stand for -/

/-- The characters of a piece. -/
def Piece.chars : Piece → List CodePoint
  | .word w =>
    (if w.isBlankBefore then [.char ' '] else []) ++ w.chars.getD [] ++
      (if w.isBlankBehind then [.char ' '] else [])
  | .blank => [.char ' ']
  | .point => [.char '.']
  | .backslash => [.char '\\']

/-- A name that begins or ends with a point cannot be taken apart. -/
def pointedName {α : Type} : Except Fault α := .error (.noOperation "str" "token_type")

/-- The pieces of a name without the blanks before it. -/
def withoutFirstBlanks : List Piece → Except Fault (List Piece)
  | .word word :: rest => .ok (.word { word with isBlankBefore := false } :: rest)
  | .blank :: rest => .ok rest
  | _ => pointedName

/-- The pieces of a name without the blanks behind it. -/
def withoutLastBlanks : List Piece → Except Fault (List Piece)
  | [] => .error .addressEmpty
  | [.word word] => .ok [.word { word with isBlankBehind := false }]
  | [.blank] => .ok []
  | [_] => pointedName
  | piece :: rest => do return piece :: (← withoutLastBlanks rest)

/-- The name that pieces stand for. -/
def nameOf (pieces : List Piece) : Except Fault (List CodePoint) :=
  if pieces.isEmpty then .ok []
  else do
    let pieces ← withoutLastBlanks (← withoutFirstBlanks pieces)
    return pieces.flatMap Piece.chars

/-- The characters of the pieces of a mailbox, without blanks at its ends and next to points. The first
argument says that the pieces stand there. -/
def mailboxChars : Bool → List Piece → List CodePoint
  | _, [] => []
  | atPoint, .blank :: rest => mailboxChars atPoint rest
  | _, .point :: rest => .char '.' :: mailboxChars true rest
  | _, .backslash :: rest => .char '\\' :: mailboxChars false rest
  | atPoint, .word word :: rest =>
    let next := (rest.find? (· ≠ .blank)).getD .point
    Piece.chars (.word { word with
      isBlankBefore := word.isBlankBefore && !atPoint
      isBlankBehind := word.isBlankBehind && next ≠ .point }) ++ mailboxChars false rest

/-- The mailbox that is meant. -/
def Mailbox.meant : Mailbox → Except Fault (List CodePoint)
  | .plain none => .error .addressEmpty
  | .plain (some chars) => .ok chars
  | .parts pieces => .ok (mailboxChars true pieces)

/-- The address that is meant. -/
def meant : Option Written → Except Fault Address
  | none => .ok ⟨[], [], []⟩
  | some written => do
    let name ← nameOf (written.name.getD [])
    let (mailbox, domain) ←
      match written.direct with
      | none => pure ([], [])
      | some direct => pure (← direct.mailbox.meant, direct.domain)
    if (name ++ mailbox ++ domain).any fun c => c = '\r' || c = '\n' then throw .addressBreaks
    return ⟨name, mailbox, domain⟩

/-- The addresses that are meant. -/
def Entry.meant : Entry → Except Fault Addressee
  | .one written => do return .one (← AddressLine.meant written)
  | .group name members => do
    return .group (← nameOf name) (← members.mapM AddressLine.meant)
  | .spoiledGroup name => do
    let _ ← nameOf name
    throw (.noOperation "Group" "local_part")

/-- What stands for the entries of a line. -/
def entries (line : List CodePoint) : Except Fault (List Entry) := do
  let listed := listed charsets (Entry.ofLine charsets) (.one none) Entry.spoiled []
  return (← listed line.length line).1

/-- The addresses of a line. -/
def read (line : List CodePoint) : Except Fault (List Addressee) := do
  (← entries charsets line).mapM Entry.meant

end LogAlert.Delivery.AddressLine
