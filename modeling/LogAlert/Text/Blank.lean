/-
# LogAlert.Text.Blank -- white space

Which characters are blank, and texts without the blank characters at their ends. The set is the
one of Unicode 14 together with the four information separators below the space.
-/

set_option autoImplicit false

namespace LogAlert.Text

/-- White space: the separators of Unicode, the line and page breaks, the tab and the information
separators. -/
def isBlank (c : Char) : Bool :=
  let n := c.toNat
  (9 ≤ n && n ≤ 13) || (28 ≤ n && n ≤ 32) || n == 0x85 || n == 0xA0 || n == 0x1680 ||
    (0x2000 ≤ n && n ≤ 0x200A) || n == 0x2028 || n == 0x2029 || n == 0x202F || n == 0x205F ||
    n == 0x3000

/-- The characters without the blank ones at their start and end. -/
def trimChars (chars : List Char) : List Char :=
  (((chars.dropWhile isBlank).reverse).dropWhile isBlank).reverse

/-- The text without the blank characters at its start and end. -/
def trim (text : String) : String := String.ofList (trimChars text.toList)

/-- Nothing but blank characters. -/
def isBlankText (text : String) : Bool := text.toList.all isBlank

end LogAlert.Text
