/-
# LogAlert.Yaml.Surrogates -- code points that are no characters

A YAML text can name surrogates, which are code points but no characters, so that no text here holds
one.  Another character is read in place of each.  There are two such readings of a text, which are
the same but for this character; they show what the text has surrogates for: a part of it that both
readings have in common can be encoded, and any other cannot (`unencodable?`).
-/
import LogAlert.Fault

set_option autoImplicit false

namespace LogAlert.Yaml

/-- What is read in place of a surrogate. -/
inductive Surrogates where
  /-- The replacement character. -/
  | replaced
  /-- A private character that tells which surrogate it is. -/
  | shown
deriving DecidableEq, Repr, Inhabited

namespace Surrogates

/-- The code points that are surrogates. -/
def isSurrogate (n : Nat) : Bool := 0xD800 ≤ n && n ≤ 0xDFFF

/-- How far the private characters are from the surrogates. -/
def shift : Nat := 0xF0000

/-- The character in place of a surrogate. -/
def char (n : Nat) : Surrogates → Char
  | .replaced => '\ufffd'
  | .shown => Char.ofNat (n + shift)

/-- The surrogate that has these characters in its place. -/
def at? (replaced shown : Char) : Option Nat :=
  if replaced = shown then none else some (shown.toNat - shift)

/-- Why a text cannot be encoded that has these two readings: its first surrogates. -/
def unencodable? (replaced shown : String) : Option Fault :=
  let places := List.zipWith at? replaced.toList shown.toList
  match places.span (·.isNone) with
  | (before, some code :: rest) =>
    some (.unencodable .utf8 code before.length
      (before.length + (rest.takeWhile (·.isSome)).length))
  | _ => none

end Surrogates

end LogAlert.Yaml
