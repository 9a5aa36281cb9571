/-
# LogAlert.Command.Switch -- switches on a command line

A word of a command line that begins with a hyphen is a switch. Long switches may be abbreviated as
long as that is unambiguous; a value follows as the next word, behind an equals sign, or directly
behind a short switch; short switches without value can be joined into one word. A negative number,
or a word with a blank, is no switch, and neither is anything behind a word of two hyphens.
`readLevel` reads the switches and operands of one level of a command line.
-/
import LogAlert.Text.Digit

set_option autoImplicit false

namespace LogAlert.Command

/-- What a switch does. -/
inductive Role where
  /-- Help is wanted instead of all else. -/
  | help
  /-- The switch is given or not. -/
  | flag
  /-- The switch has a value. -/
  | value
deriving DecidableEq, Repr

/-- A switch that is known. -/
structure Switch where
  /-- All ways to write it, with their hyphens. -/
  names : List String
  /-- What its setting is called. -/
  key : String
  role : Role
deriving DecidableEq, Repr

/-- A request for help is known everywhere. -/
def helpSwitch : Switch := ⟨["-h", "--help"], "help", .help⟩

/-- Why a command line is not carried out. -/
inductive Stop where
  /-- Help was asked for. -/
  | help
  /-- The command line is malformed. -/
  | usage
deriving DecidableEq, Repr

/-- A value written behind a switch in the same word. -/
structure Attached where
  /-- An equals sign stands in front of it. -/
  separated : Bool
  chars : List Char
deriving DecidableEq, Repr

/-- A word of a command line. -/
inductive Word where
  /-- A word that is no switch. -/
  | plain
  /-- Two hyphens: no switches follow. -/
  | hyphens
  /-- A known switch, under this name. -/
  | known (switch : Switch) (name : List Char) (attached : Option Attached)
  | unknown
  /-- An abbreviation of several switches. -/
  | ambiguous
deriving DecidableEq, Repr

/-- The switches with the given name. -/
def named (switches : List Switch) (name : List Char) : Option Switch :=
  switches.find? fun s => s.names.any fun known => known.toList = name

/-- The characters before the first equals sign, and those behind it. -/
def splitAtEquals : List Char → List Char × Option (List Char)
  | [] => ([], none)
  | '=' :: rest => ([], some rest)
  | c :: rest => let (before, behind) := splitAtEquals rest; (c :: before, behind)

/-- The known names that begin with the given characters. -/
def completions (switches : List Switch) (start : List Char) : List (Switch × List Char) :=
  switches.flatMap fun s =>
    (s.names.map String.toList).filterMap fun name =>
      if start.isPrefixOf name then some (s, name) else none

/-- The word is written like a negative number. -/
def isNegativeNumber (chars : List Char) : Bool :=
  match chars with
  | '-' :: number =>
    let number := if number.getLast? = some '\n' then number.dropLast else number
    let fraction := (number.dropWhile Text.isDigit)
    let digits := fraction.drop 1
    (fraction.isEmpty && !number.isEmpty) ||
      (fraction.head? = some '.' && !digits.isEmpty && digits.all Text.isDigit)
  | _ => false

/-- A word that begins with a hyphen but is no switch under its full name. -/
def abbreviated (switches : List Switch) (chars : List Char) : Word :=
  let candidates : List Word :=
    match chars with
    | '-' :: '-' :: _ =>
      let (start, behind) := splitAtEquals chars
      (completions switches start).map fun (s, name) =>
        .known s name (behind.map fun chars => ⟨true, chars⟩)
    | hyphen :: letter :: rest =>
      ((named switches [hyphen, letter]).map fun s =>
        Word.known s [hyphen, letter] (some ⟨false, rest⟩)).toList
    | _ => []
  match candidates with
  | [] => if isNegativeNumber chars || chars.contains ' ' then .plain else .unknown
  | [word] => word
  | _ => .ambiguous

/-- What a word is. -/
def Word.ofText (switches : List Switch) (text : String) : Word :=
  let chars := text.toList
  if chars.head? ≠ some '-' then .plain
  else
    match named switches chars with
    | some s => .known s chars none
    | none =>
      if chars.length = 1 then .plain
      else
        match splitAtEquals chars with
        | (name, some value) =>
          match named switches name with
          | some s => .known s name (some ⟨true, value⟩)
          | none => abbreviated switches chars
        | (_, none) => abbreviated switches chars

/-- What the words of a command line are, each with its text. -/
def words (switches : List Switch) : List String → List (String × Word)
  | [] => []
  | text :: rest =>
    if text = "--" then (text, .hyphens) :: rest.map fun later => (later, .plain)
    else (text, Word.ofText switches text) :: words switches rest

/-- What one word of switches says. -/
structure Joined where
  /-- The switches with their values. -/
  found : List (Switch × String)
  /-- The last switch needs the next word as its value. -/
  pending : Option Switch
  /-- The word ends with something that is no switch. -/
  extra : Bool

/-- The switches in a word, beginning with a switch that has a value attached. -/
def unjoin (switches : List Switch) (s : Switch) (isShort separated : Bool) :
    List Char → Option Joined
  | [] => if s.role = .value then some ⟨[(s, "")], none, false⟩ else none
  | c :: rest =>
    if s.role = .value then some ⟨[(s, String.ofList (c :: rest))], none, false⟩
    else if !isShort || separated || c = '-' then none
    else
      match named switches ['-', c] with
      | none => some ⟨[(s, "")], none, true⟩
      | some next =>
        let behind : Option Joined :=
          match rest with
          | [] =>
            some (if next.role = .value then ⟨[], some next, false⟩ else ⟨[(next, "")], none, false⟩)
          | '=' :: value => unjoin switches next true true value
          | value => unjoin switches next true false value
        behind.map fun joined => { joined with found := (s, "") :: joined.found }

/-- The switches in a word. -/
def joined (switches : List Switch) (s : Switch) (name : List Char) (attached : Option Attached) :
    Option Joined :=
  match attached with
  | some a => unjoin switches s (name.drop 1 |>.head? |>.any (· ≠ '-')) a.separated a.chars
  | none =>
    some (if s.role = .value then ⟨[], some s, false⟩ else ⟨[(s, "")], none, false⟩)

/-- What is read from one level of a command line. -/
structure Reading where
  /-- Settings in the order in which they were given. -/
  settings : List (String × String)
  operands : List String
  /-- The words that belong to the level below. -/
  below : List String
  /-- Some words mean nothing. -/
  extra : Bool
deriving DecidableEq, Repr

/-- How operands are treated. -/
inductive Operands where
  /-- So many operands belong to this level. -/
  | upTo (count : Nat)
  /-- The first operand and all words behind it belong to the level below. -/
  | below
deriving DecidableEq, Repr

/-- Take note of switches; a request for help ends the reading. -/
def note (reading : Reading) : List (Switch × String) → Except Stop Reading
  | [] => .ok reading
  | (s, value) :: rest =>
    if s.role = .help then .error .help
    else note { reading with settings := reading.settings ++ [(s.key, value)] } rest

/-- Read words. -/
def readWords (switches : List Switch) (operands : Operands) (reading : Reading) :
    List (String × Word) → Except Stop Reading
  | [] => .ok reading
  | (text, word) :: rest =>
    match word, operands with
    | .ambiguous, _ => .error .usage
    | .unknown, _ => readWords switches operands { reading with extra := true } rest
    | .known s name attached, _ =>
      match joined switches s name attached with
      | none => .error .usage
      | some word =>
        let reading := { reading with extra := reading.extra || word.extra }
        match word.pending, rest with
        | none, rest => do readWords switches operands (← note reading word.found) rest
        | some last, (value, .plain) :: rest => do
          readWords switches operands (← note reading (word.found ++ [(last, value)])) rest
        | some _, _ => .error .usage
    | .plain, .below | .hyphens, .below =>
      .ok { reading with below := text :: rest.map (·.1) }
    | .plain, .upTo 0 | .hyphens, .upTo 0 =>
      readWords switches (.upTo 0) { reading with extra := true } rest
    | .plain, .upTo (count + 1) =>
      let reading := { reading with operands := reading.operands ++ [text] }
      match rest with
      | (_, .hyphens) :: rest => readWords switches (.upTo count) reading rest
      | rest => readWords switches (.upTo count) reading rest
    | .hyphens, .upTo (count + 1) =>
      match rest with
      | (value, _) :: rest =>
        readWords switches (.upTo count) { reading with operands := reading.operands ++ [value] } rest
      | [] => .ok { reading with extra := true }

/-- Read one level of a command line. An ambiguous word anywhere is an error before all else. -/
def readLevel (switches : List Switch) (operands : Operands) (line : List String) :
    Except Stop Reading :=
  let words := words switches line
  if words.any fun (_, word) => word = .ambiguous then .error .usage
  else readWords switches operands ⟨[], [], [], false⟩ words

end LogAlert.Command
