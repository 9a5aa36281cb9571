/-
# LogAlert.Json.Print -- values as JSON text

Queue entries and stored columns are JSON texts in one fixed form: ASCII only, a blank behind each
comma and colon, entries in the order of the mapping. Characters beyond ASCII are escaped by their
UTF-16 units. Scalars that JSON lacks are either refused or printed as texts (`Strays`).
-/
import LogAlert.Fault

set_option autoImplicit false

namespace LogAlert.Json

/-- What is done with a value that JSON has no form for. -/
inductive Strays where
  | refused
  | asText
deriving DecidableEq, Repr

/-- The escape of one UTF-16 unit. -/
def unitEscape (unit : Nat) : List Char := '\\' :: 'u' :: Text.hexDigits 4 unit

/-- One character inside a JSON string. -/
def charText (c : Char) : List Char :=
  if c = '"' then ['\\', '"']
  else if c = '\\' then ['\\', '\\']
  else if c = '\n' then ['\\', 'n']
  else if c = '\r' then ['\\', 'r']
  else if c = '\t' then ['\\', 't']
  else if c = '\x0c' then ['\\', 'f']
  else if c = '\x08' then ['\\', 'b']
  else
    let n := c.toNat
    if 32 ≤ n ∧ n ≤ 126 then [c]
    else if n < 0x10000 then unitEscape n
    else unitEscape (0xD800 + (n - 0x10000) / 0x400) ++ unitEscape (0xDC00 + (n - 0x10000) % 0x400)

/-- A text as a JSON string. -/
def stringText (chars : List Char) : List Char := '"' :: chars.flatMap charText ++ ['"']

/-- The names of the values that are not finite. -/
def names : Binary64.Names := ⟨"NaN", "Infinity", "-Infinity"⟩

/-- The text of an integer. -/
def intText (n : Int) : Except Fault (List Char) :=
  if Value.isOverlong n then .error .overlongInteger else .ok (Text.intText n).toList

/-- A key as a JSON string: texts as they are, other scalars by their JSON text. -/
def keyText : Value → Except Fault (List Char)
  | .text s => .ok (stringText s.toList)
  | .null => .ok (stringText "null".toList)
  | .bool b => .ok (stringText (if b then "true" else "false").toList)
  | .int n => (intText n).map stringText
  | .float x => .ok (stringText (x.text names).toList)
  | v => .error (.noJsonKey v.kindName)

/-- A value that JSON has no form for. -/
def strayText (strays : Strays) (v : Value) : Except Fault (List Char) :=
  match strays with
  | .refused => .error (.noJson v.kindName)
  | .asText => .ok (stringText v.shown.toList)

/-- Texts with a comma and a blank between them. -/
def separated : List (List Char) → List Char
  | [] => []
  | [x] => x
  | x :: rest => x ++ ',' :: ' ' :: separated rest

mutual

/-- The JSON text of a value. -/
def chars (strays : Strays) : Value → Except Fault (List Char)
  | .null => .ok "null".toList
  | .bool b => .ok (if b then "true" else "false").toList
  | .int n => intText n
  | .float x => .ok (x.text names).toList
  | .text s => .ok (stringText s.toList)
  | .list items => do
    let parts ← itemsChars strays items
    return '[' :: separated parts ++ [']']
  | .pair a b => do
    let x ← chars strays a
    let y ← chars strays b
    return '[' :: separated [x, y] ++ [']']
  | .map entries => do
    let parts ← entriesChars strays entries
    return '\x7b' :: separated parts ++ ['\x7d']
  | .bytes octets => strayText strays (.bytes octets)
  | .date d => strayText strays (.date d)
  | .time t => strayText strays (.time t)
  | .set items => strayText strays (.set items)

/-- The JSON text of each item. -/
def itemsChars (strays : Strays) : List Value → Except Fault (List (List Char))
  | [] => .ok []
  | v :: rest => do
    let x ← chars strays v
    let xs ← itemsChars strays rest
    return x :: xs

/-- The JSON text of each entry. -/
def entriesChars (strays : Strays) : List (Value × Value) → Except Fault (List (List Char))
  | [] => .ok []
  | (k, v) :: rest => do
    let key ← keyText k
    let x ← chars strays v
    let xs ← entriesChars strays rest
    return (key ++ ':' :: ' ' :: x) :: xs

end

/-- The JSON text of a value. -/
def print (strays : Strays) (v : Value) : Except Fault String :=
  (chars strays v).map String.ofList

end LogAlert.Json
