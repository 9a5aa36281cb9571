/-
# LogAlert.Delivery.EncodedWord -- encoded words in the head of a message

The head of a message is written in ASCII. Words with other characters stand there in code, as
`=?utf-8?q?caf=C3=A9?=`: the name of a charset, a letter that says how its bytes are written, and what
is written. A text that is put into the head is read again, and what looks like an encoded word is
decoded, wherever the text came from. A word that cannot be decoded is taken as it stands.

Which charsets there are, and what bytes mean in them, is up to the machine: `Charsets`.
-/
import LogAlert.Json.Read
import LogAlert.Text.CodePoint

set_option autoImplicit false

namespace LogAlert.Delivery

open Text (CodePoint)

/-- What bytes mean in a charset with this name, if they mean anything. -/
abbrev Charsets := List CodePoint → List UInt8 → Option (List CodePoint)

namespace Charsets

/-- The charsets of most messages: UTF-8 and the one of Western Europe. Bytes in any other one are
taken for ASCII. Those without a meaning are kept. -/
def common : Charsets := fun name bytes =>
  let name := name.filterMap (·.char?.map Char.toLower)
  let keep := fun bytes => bytes.map CodePoint.keeping
  if name ∈ ["utf-8".toList, "utf8".toList] then some (CodePoint.ofUtf8 keep bytes.length bytes)
  else if name ∈ ["iso-8859-1".toList, "latin-1".toList] then
    some (bytes.map fun byte => .char (.ofNat byte.toNat))
  else
    some (bytes.map fun byte =>
      if byte < 0x80 then .char (.ofNat byte.toNat) else CodePoint.keeping byte)

end Charsets

namespace EncodedWord

/-! ## Bytes -/

/-- The byte that two hexadecimal digits stand for. -/
def hexByte? (high low : UInt8) : Option UInt8 := do
  let high ← Json.hexValue? (.ofNat high.toNat)
  let low ← Json.hexValue? (.ofNat low.toNat)
  return .ofNat (high * 16 + low)

/-- Bytes that are written as themselves, as two hexadecimal digits behind a sign of equality, or as an
underline in place of a blank. The first argument says how many bytes have been read already. -/
def quotedBytes : Nat → List UInt8 → List UInt8
  | skip + 1, _ :: rest => quotedBytes skip rest
  | 0, byte :: rest =>
    let escaped :=
      match rest with
      | high :: low :: _ => if byte = 0x3D then hexByte? high low else none
      | _ => none
    match escaped with
    | some escaped => escaped :: quotedBytes 2 rest
    | none => (if byte = 0x5F then 0x20 else byte) :: quotedBytes 0 rest
  | _, [] => []

/-- The value of a digit to base 64. -/
def digit64? (byte : UInt8) : Option UInt8 :=
  if 0x41 ≤ byte ∧ byte ≤ 0x5A then some (byte - 0x41)
  else if 0x61 ≤ byte ∧ byte ≤ 0x7A then some (byte - 0x61 + 26)
  else if 0x30 ≤ byte ∧ byte ≤ 0x39 then some (byte - 0x30 + 52)
  else if byte = 0x2B then some 62
  else if byte = 0x2F then some 63
  else none

/-- Bytes that are written to base 64, behind some of the four digits of three bytes, of which some
bits are left, and behind some signs that fill them up. -/
def bytes64 (digits : Nat) (left : UInt8) (fill : Nat) : List UInt8 → Option (List UInt8)
  | [] => if digits = 0 then some [] else none
  | byte :: rest =>
    if byte = 0x3D then
      if digits < 2 then bytes64 digits left fill rest
      else if 4 ≤ digits + fill + 1 then some []
      else bytes64 digits left (fill + 1) rest
    else
      match digit64? byte, digits with
      | none, _ => bytes64 digits left fill rest
      | some digit, 0 => bytes64 1 digit 0 rest
      | some digit, 1 => (bytes64 2 (digit % 16) 0 rest).map ((left * 4 + digit / 16) :: ·)
      | some digit, 2 => (bytes64 3 (digit % 4) 0 rest).map ((left * 16 + digit / 4) :: ·)
      | some digit, _ => (bytes64 0 0 0 rest).map ((left * 64 + digit) :: ·)

/-- Bytes that are written to base 64. Signs that are missing at the end do not matter; what cannot be
read even then stands for itself. -/
def base64 (bytes : List UInt8) : List UInt8 :=
  ((bytes64 0 0 0 bytes).or (bytes64 0 0 0 (bytes ++ [0x3D, 0x3D]))).getD bytes

/-! ## Words -/

/-- What stands before and behind the next end of a word. -/
def atEnd : List CodePoint → Option (List CodePoint × List CodePoint)
  | .char '?' :: .char '=' :: rest => some ([], rest)
  | c :: rest => (atEnd rest).map fun (before, behind) => (c :: before, behind)
  | [] => none

/-- The first two code points are hexadecimal digits. -/
def startsEscape : List CodePoint → Bool
  | .char a :: .char b :: _ => (Json.hexValue? a).isSome && (Json.hexValue? b).isSome
  | _ => false

/-- What a word is made of, and what stands behind it. What is written may begin with a sign of
equality, which does not end the word. -/
def framed (line : List CodePoint) : Option (List CodePoint × List CodePoint) := do
  let (before, behind) ← atEnd line
  if startsEscape behind && before.count (.char '?') < 2 then
    let (more, behind) := (atEnd behind).getD (behind, [])
    return (before ++ .char '?' :: .char '=' :: more, behind)
  else return (before, behind)

/-- What a word means. -/
def decoded (charsets : Charsets) (word : List CodePoint) : Option (List CodePoint) :=
  match word.splitOn (.char '?') with
  | [charset, [.char form], written] => do
    let bytes ← written.mapM CodePoint.ascii?
    let bytes ←
      if form.toLower = 'q' then some (quotedBytes 0 bytes)
      else if form.toLower = 'b' then some (base64 bytes)
      else none
    -- behind the name of the charset there may be the one of a language
    charsets (charset.takeWhile (· ≠ .char '*')) bytes
  | _ => none

/-- The line begins with an encoded word: what it means, and what stands behind it. -/
def read (charsets : Charsets) : List CodePoint → Option (List CodePoint × List CodePoint)
  | .char '=' :: .char '?' :: rest => do
    let (word, behind) ← framed rest
    return (← decoded charsets word, behind)
  | _ => none

/-! ## Texts -/

/-- A blank between the words of a line. -/
def isSpace (c : CodePoint) : Bool := c = ' ' || c = '\t'

/-- A text up to a character that ends it, and what stands from there. Encoded words may begin at its
start, behind blanks, and behind one another; `plain` reads a word that is none. Blanks between two
encoded words do not count. The second argument says that such a word precedes. -/
def text (charsets : Charsets) (ends : CodePoint → Bool)
    (plain : List CodePoint → List CodePoint × List CodePoint) :
    Nat → Bool → List CodePoint → List CodePoint × List CodePoint
  | bound + 1, isBehindWord, c :: rest =>
    if ends c then ([], c :: rest)
    else
      let (first, isWord, behind) :=
        if isSpace c then
          let (blanks, behind) := (c :: rest).span CodePoint.isBlank
          (if isBehindWord && (read charsets behind).isSome then [] else blanks, false, behind)
        else
          match read charsets (c :: rest) with
          | some (meaning, behind) => (meaning, true, behind)
          | none => let (chars, behind) := plain (c :: rest); (chars, false, behind)
      let (others, behind) := text charsets ends plain bound isWord behind
      (first ++ others, behind)
  | _, _, line => ([], line)

/-- The line begins with what looks like an encoded word. -/
def seems : List CodePoint → Bool
  | .char '=' :: .char '?' :: rest =>
    match rest.dropWhile (· ≠ .char '?') with
    | _ :: .char form :: .char '?' :: written =>
      (form.toLower = 'q' || form.toLower = 'b') && (atEnd written).isSome
    | _ => false
  | _ => false

/-- The line has what looks like an encoded word in it. -/
def holds : List CodePoint → Bool
  | c :: rest => seems (c :: rest) || holds rest
  | [] => false

/-- What stands before the next place where an encoded word may begin. -/
def beforeStart : List CodePoint → List CodePoint
  | .char '=' :: .char '?' :: _ => []
  | c :: rest => c :: beforeStart rest
  | [] => []

/-- A word that is not encoded, up to the next blank. It ends earlier if it has an encoded word in
it. -/
def unencoded (line : List CodePoint) : List CodePoint × List CodePoint :=
  let (word, rest) := line.span (!isSpace ·)
  let before := beforeStart word
  if !before.isEmpty && holds word then (before, line.drop before.length)
  else (word, rest)

/-- What a text in the head of a message means that may be any text. -/
def meant (charsets : Charsets) (line : List CodePoint) : List CodePoint :=
  (text charsets (fun _ => false) unencoded line.length false line).1

end EncodedWord

end LogAlert.Delivery
