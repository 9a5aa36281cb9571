/-
# LogAlert.Yaml.Print -- YAML texts of mappings

`print` writes a mapping as a YAML document: one entry a line, nested mappings indented by two
columns, the items of a list behind hyphens in the column of their key. Scalars are written in the
form of their type (`scalarOf`), texts between quotes only where they need them.
-/
import LogAlert.Yaml.Style
import LogAlert.Yaml.Tag

set_option autoImplicit false

namespace LogAlert.Yaml

/-- A floating-point number as it is written: a number with an exponent has a point. -/
def floatText (x : Binary64) : String :=
  let text := x.text ⟨".nan", ".inf", "-.inf"⟩
  let chars := text.toList
  if '.' ∈ chars then text
  else String.ofList (chars.flatMap fun c => if c = 'e' then ['.', '0', 'e'] else [c])

/-- The digits of the base-64 form. -/
def base64Digits : List Char :=
  "ABCDEFGHIJKLMNOPQRSTUVWXYZabcdefghijklmnopqrstuvwxyz0123456789+/".toList

/-- The base-64 digit of a number below 64. -/
def base64Digit (n : Nat) : Char := (base64Digits[n]?).getD '='

/-- The base-64 form of bytes, in groups of four characters. -/
def base64 : List UInt8 → List Char
  | [] => []
  | [a] =>
    let n := a.toNat * 16
    [base64Digit (n / 64), base64Digit (n % 64), '=', '=']
  | [a, b] =>
    let n := (a.toNat * 256 + b.toNat) * 4
    [base64Digit (n / 4096), base64Digit (n / 64 % 64), base64Digit (n % 64), '=']
  | a :: b :: c :: rest =>
    let n := (a.toNat * 256 + b.toNat) * 256 + c.toNat
    base64Digit (n / 262144) :: base64Digit (n / 4096 % 64) :: base64Digit (n / 64 % 64) ::
      base64Digit (n % 64) :: base64 rest

/-- Bytes are written in lines of so many, four characters for three bytes. -/
def bytesOfLine : Nat := 57

/-- The lines of the base-64 form of bytes; `fuel` is at least the number of lines. -/
def base64Lines : Nat → List UInt8 → List (List Char)
  | 0, _ => []
  | _ + 1, [] => []
  | fuel + 1, octets =>
    base64 (octets.take bytesOfLine) :: base64Lines fuel (octets.drop bytesOfLine)

@[inherit_doc base64Lines]
def octetLines (octets : List UInt8) : List (List Char) := base64Lines octets.length octets

/-- The type and the text of a scalar; collections are none. -/
def scalarOf : Value → Option (Tag × String)
  | .null => some (.null, "null")
  | .bool b => some (.bool, if b then "true" else "false")
  | .int n => some (.int, Text.intText n)
  | .float x => some (.float, floatText x)
  | .text s => some (.text, s)
  | .bytes octets =>
    some (.binary, String.ofList ((octetLines octets).flatMap fun line => line ++ ['\n']))
  | .date d => some (.timestamp, d.text)
  | .time t => some (.timestamp, t.spacedText)
  | _ => none

/-- A tag as it is written in front of a node. -/
def tagText (tag : Tag) : String :=
  "!!" ++ (((tagNames.find? fun entry => entry.2 = tag).map (·.1)).getD "")

/-- Keys that are longer than this, with their tag, stand on a line of their own. -/
def keyLength : Nat := 128

/-- The key stands on one line with its value: it is short and neither empty nor of several
lines. -/
def isSimpleKey (key : Value) : Bool :=
  match scalarOf key with
  | some (tag, text) =>
    (tagText tag).length + text.length < keyLength && text ≠ "" && !isMultiline text.toList
  | none => false

namespace Page

/-- Write lines under a bar. -/
def block (page : Page) (column : Nat) (lines : List (List Char)) : Page :=
  lines.foldl (fun page line => ((page.indent column).put line).lineBreak '\n')
    ((page.mark "|").lineBreak '\n')

/-- Write bytes. -/
def octets (page : Page) (column : Nat) (octets : List UInt8) : Page :=
  let page := page.mark (tagText .binary)
  if octets.isEmpty then page.doubleQuoted false column []
  else page.block column (octetLines octets)

/-- Write a scalar. The tag is written where the text alone would be read as another type. -/
def scalar (page : Page) (column : Nat) (asKey : Bool) (tag : Tag) (text : String) : Page :=
  let style := Style.of tag text asKey
  let page := if style = .plain || tag = .text then page else page.mark (tagText tag)
  page.styled style (!asKey) column text.toList

/-- Write the brackets of an empty collection. -/
def brackets (page : Page) (left right : String) : Page :=
  ({ page.mark left with spaced := true }).closing right

/-- The column of the items of a list: behind a key on the same line, that of the key. -/
def itemColumn (page : Page) (column : Nat) (inEntry : Bool) : Nat :=
  if inEntry && !page.atLineStart then column else column + 2

mutual

/-- Write a value into a collection whose items begin at the given column; `inEntry` if that is a
mapping. -/
def value (page : Page) (column : Nat) (inEntry asKey : Bool) : Value → Page
  | .list [] => page.brackets "[" "]"
  | .list items => page.items (page.itemColumn column inEntry) items
  | .pair a b =>
    let inner := page.itemColumn column inEntry
    let page := ((page.indent inner).indicator "-").value inner false false a
    ((page.indent inner).indicator "-").value inner false false b
  | .map [] => page.brackets "\x7b" "\x7d"
  | .map entries => page.entries (column + 2) entries
  | .set [] => (page.mark (tagText .set)).brackets "\x7b" "\x7d"
  | .set members => (page.mark (tagText .set)).members (column + 2) members
  | .bytes octets => page.octets (column + 2) octets
  | v =>
    match scalarOf v with
    | some (tag, text) => page.scalar (column + 2) asKey tag text
    | none => page

/-- Write the items of a list, each behind a hyphen. -/
def items (page : Page) (column : Nat) : List Value → Page
  | [] => page
  | x :: rest => (((page.indent column).indicator "-").value column false false x).items column rest

/-- Write the members of a set, each with null as its value. -/
def members (page : Page) (column : Nat) : List Value → Page
  | [] => page
  | x :: rest =>
    let page := page.indent column
    let page :=
      if isSimpleKey x then (page.value column true true x).closing ":"
      else
        (((page.indicator "?").value column true false x).indent column).indicator ":"
    (page.scalar (column + 2) false .null "null").members column rest

/-- Write the entries of a mapping. -/
def entries (page : Page) (column : Nat) : List (Value × Value) → Page
  | [] => page
  | (k, v) :: rest =>
    let page := page.indent column
    let page :=
      if isSimpleKey k then (page.value column true true k).closing ":"
      else
        (((page.indicator "?").value column true false k).indent column).indicator ":"
    (page.value column true false v).entries column rest

end

end Page

/-- The document of a mapping. An integer with more digits than are written is a fault. -/
def print (entries : List (Value × Value)) : Except Fault String :=
  if Value.overlongEntries entries then .error .overlongInteger
  else
    let page :=
      if entries.isEmpty then Page.empty.brackets "\x7b" "\x7d" else Page.empty.entries 0 entries
    .ok (page.indent 0).text

end LogAlert.Yaml
