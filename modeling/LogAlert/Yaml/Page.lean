/-
# LogAlert.Yaml.Page -- lines under construction

A `Page` is a text that is being written, with what the layout depends on: the column, and whether
only white space or indicators stand on the line so far. Lines are broken at spaces behind the
column `Page.width`.
-/
import LogAlert.Yaml.Token

set_option autoImplicit false

namespace LogAlert.Yaml

/-- A text that is being written. -/
structure Page where
  /-- The characters, the last one first. -/
  reversed : List Char
  column : Nat
  /-- White space, or an opening bracket, was written last. -/
  spaced : Bool
  /-- Nothing but indentation and indicators stands on the line. -/
  atLineStart : Bool
deriving Repr, Inhabited

namespace Page

/-- No line is broken before this column. -/
def width : Nat := 80

/-- A page without characters. -/
def empty : Page := ⟨[], 0, true, true⟩

/-- The text of the page. -/
def text (page : Page) : String := String.ofList page.reversed.reverse

/-- Write characters as they are. -/
def put (page : Page) (chars : List Char) : Page :=
  { page with
    reversed := chars.reverse ++ page.reversed
    column := page.column + chars.length }

/-- Write a line break. -/
def lineBreak (page : Page) (c : Char) : Page := ⟨c :: page.reversed, 0, true, true⟩

/-- The line holds text now. -/
def begun (page : Page) : Page := { page with spaced := false, atLineStart := false }

/-- Write a space unless white space was written last. -/
def space (page : Page) : Page := if page.spaced then page else page.put [' ']

/-- Write a mark that may stand in front of others on its line, behind a space. -/
def indicator (page : Page) (mark : String) : Page :=
  { page.space.put mark.toList with spaced := false }

/-- Write a mark behind a space. -/
def mark (page : Page) (mark : String) : Page := (page.indicator mark).begun

/-- Write a mark without a space in front of it. -/
def closing (page : Page) (mark : String) : Page := (page.put mark.toList).begun

/-- Go to the column, on a new line unless the column is still ahead on this one. -/
def indent (page : Page) (column : Nat) : Page :=
  let page :=
    if !page.atLineStart || column < page.column || (page.column = column && !page.spaced) then
      page.lineBreak '\n'
    else page
  if page.column < column then
    { page.put (List.replicate (column - page.column) ' ') with spaced := true }
  else page

end Page

end LogAlert.Yaml
