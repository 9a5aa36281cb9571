/-
# LogAlert.Text.Case -- lower case and caseless comparison

Rules of a detection compare text without regard to case in two ways. Whole texts are compared by
their lower-case forms (`lower`), where a capital sigma at the end of a word has a form of its own.
Single characters, inside a wildcard pattern, are compared by their case-fold key (`foldKey`), which
also identifies characters that share an upper case, such as the two lower-case sigmas.
-/
import LogAlert.Text.CaseTable

set_option autoImplicit false

namespace LogAlert.Text

/-- The code point lies in one of the inclusive ranges. -/
def inRanges (ranges : List (Nat × Nat)) (code : Nat) : Bool :=
  ranges.any fun range => range.1 ≤ code && code ≤ range.2

/-- The lower case of a character, when that is a single character; else the character itself. -/
def lowerChar (c : Char) : Char :=
  if c.toNat < 128 then c.toLower
  else if c = 'İ' then 'i'
  else match lowerRuns.find? (·.covers c.toNat) with
    | some run => Char.ofNat ((c.toNat : Int) + run.shift).toNat
    | none => c

/-- The full lower case of a character: only the dotted capital I has two characters. -/
def lowerChars (c : Char) : List Char :=
  if c = 'İ' then ['i', '\u0307'] else [lowerChar c]

/-- The character has a case. -/
def isCased (c : Char) : Bool := inRanges casedRanges c.toNat

/-- The character is passed over in the search for a cased neighbour. -/
def isCaseIgnorable (c : Char) : Bool := inRanges caseIgnorableRanges c.toNat

/-- The first character that is not passed over has a case. -/
def startsCased (chars : List Char) : Bool :=
  match chars.dropWhile isCaseIgnorable with
  | [] => false
  | c :: _ => isCased c

/-- The lower case of `chars`, which stand behind the characters `before` (nearest first). A capital
sigma with a cased character before it and none behind it takes its final form. -/
def lowerAfter (before : List Char) : List Char → List Char
  | [] => []
  | c :: rest =>
    (if c = 'Σ' then [if startsCased before && !startsCased rest then 'ς' else 'σ']
     else lowerChars c) ++ lowerAfter (c :: before) rest

/-- The lower case of a text. -/
def lower (text : String) : String := String.ofList (lowerAfter [] text.toList)

/-- Lower-case characters that share an upper case with another one, and the one chosen for all. -/
def foldedTogether : List (Char × Char) :=
  [('\u00b5', '\u03bc'), ('\u0131', 'i'), ('\u017f', 's'), ('\u0345', '\u03b9'),
    ('\u03c2', '\u03c3'), ('\u03d0', '\u03b2'), ('\u03d1', '\u03b8'), ('\u03d5', '\u03c6'),
    ('\u03d6', '\u03c0'), ('\u03f0', '\u03ba'), ('\u03f1', '\u03c1'), ('\u03f5', '\u03b5'),
    ('\u1c80', '\u0432'), ('\u1c81', '\u0434'), ('\u1c82', '\u043e'), ('\u1c83', '\u0441'),
    ('\u1c84', '\u0442'), ('\u1c85', '\u0442'), ('\u1c86', '\u044a'), ('\u1c87', '\u0463'),
    ('\u1c88', '\ua64b'), ('\u1e9b', '\u1e61'), ('\u1fbe', '\u03b9'), ('\u1fd3', '\u0390'),
    ('\u1fe3', '\u03b0'), ('\ufb05', '\ufb06')]

/-- Two characters are equal without regard to case exactly if their keys are equal. -/
def foldKey (c : Char) : Char :=
  let low := lowerChar c
  if low.toNat < 128 then low
  else (foldedTogether.lookup low).getD low

end LogAlert.Text
