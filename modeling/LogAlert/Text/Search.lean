/-
# LogAlert.Text.Search -- parts of texts

Whether a text occurs in another one, and the pieces of a text between separators.
-/

set_option autoImplicit false

namespace LogAlert.Text

/-- The characters occur somewhere in the others, side by side. -/
def occursIn (needle : List Char) : List Char → Bool
  | [] => needle.isEmpty
  | c :: rest => needle.isPrefixOf (c :: rest) || occursIn needle rest

/-- The first text occurs in the second. -/
def contains (needle text : String) : Bool := occursIn needle.toList text.toList

/-- The pieces between the separators; one piece more than there are separators. -/
def splitChars (separator : Char) : List Char → List (List Char)
  | [] => [[]]
  | c :: rest =>
    if c = separator then [] :: splitChars separator rest
    else
      match splitChars separator rest with
      | [] => [[c]]
      | piece :: pieces => (c :: piece) :: pieces

/-- The pieces of a text between the separators. -/
def split (separator : Char) (text : String) : List String :=
  (splitChars separator text.toList).map String.ofList

end LogAlert.Text
