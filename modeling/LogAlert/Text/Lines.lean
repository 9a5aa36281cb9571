/-
# LogAlert.Text.Lines -- the lines of texts

Texts come with line breaks of several kinds. `unifyBreaks` writes the common ones as single line
feeds; `spansLines` says whether something stands behind a first line.
-/

set_option autoImplicit false

namespace LogAlert.Text

/-- The line breaks of a text, each of them a single line feed. -/
def unifyLineBreaks : List Char → List Char
  | '\r' :: '\n' :: rest => '\n' :: unifyLineBreaks rest
  | '\r' :: rest => '\n' :: unifyLineBreaks rest
  | c :: rest => c :: unifyLineBreaks rest
  | [] => []

@[inherit_doc unifyLineBreaks]
def unifyBreaks (text : String) : String := String.ofList (unifyLineBreaks text.toList)

/-- The characters that end a line. -/
def lineEnds : List Char :=
  ['\n', '\x0b', '\x0c', '\r', '\x1c', '\x1d', '\x1e', '\u0085', '\u2028', '\u2029']

/-- What stands behind the first line. -/
def behindLine : List Char → List Char
  | [] => []
  | '\r' :: '\n' :: rest => rest
  | c :: rest => if c ∈ lineEnds then rest else behindLine rest

/-- The text has more than one line. -/
def spansLines (text : String) : Bool := !(behindLine text.toList).isEmpty

end LogAlert.Text
