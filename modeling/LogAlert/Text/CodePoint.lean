/-
# LogAlert.Text.CodePoint -- decoded texts

A text that comes out of a decoder may have surrogates, which are code points but no characters. Most
of them keep bytes that had no meaning in the charset of the text. When the text is written, these bytes
are taken for UTF-8, and shown by replacement characters if they are none (`CodePoint.written`); other
surrogates cannot be encoded.
-/
import LogAlert.Fault
import LogAlert.Text.Blank

set_option autoImplicit false

namespace LogAlert.Text

/-- A code point of a text. -/
inductive CodePoint where
  | char (c : Char)
  /-- A surrogate, given by its place among all 2048. -/
  | surrogate (place : Fin 0x800)
deriving DecidableEq, Repr

namespace CodePoint

instance : Coe Char CodePoint := ⟨.char⟩

/-- The code points of a text. -/
def ofText (text : String) : List CodePoint := text.toList.map .char

/-- The number of a code point. -/
def code : CodePoint → Nat
  | .char c => c.toNat
  | .surrogate place => 0xD800 + place.val

/-- The character, if it is one. -/
def char? : CodePoint → Option Char
  | .char c => some c
  | .surrogate _ => none

/-- The characters among code points. -/
def toText (points : List CodePoint) : String := String.ofList (points.filterMap char?)

@[inherit_doc Text.isBlank]
def isBlank (point : CodePoint) : Bool := point.char?.any Text.isBlank

/-- The surrogate that keeps a byte. -/
def keeping (byte : UInt8) : CodePoint :=
  .surrogate ⟨0x400 + byte.toNat, by have := byte.toNat_lt; omega⟩

/-- The byte that a surrogate keeps. Only bytes beyond ASCII are kept. -/
def kept? : CodePoint → Option UInt8
  | .char _ => none
  | .surrogate place =>
    if 0x480 ≤ place.val ∧ place.val < 0x500 then some (.ofNat (place.val - 0x400)) else none

/-- The byte that a code point is encoded as in ASCII. -/
def ascii? : CodePoint → Option UInt8
  | .char c => if c.toNat < 128 then some (.ofNat c.toNat) else none
  | point => point.kept?

/-- The code point has a form in UTF-8, or is a byte already. -/
def isEncodable (point : CodePoint) : Bool := point.char?.isSome || point.kept?.isSome

/-! ## UTF-8 -/

/-- What a character has in its first byte, and the bounds of the bytes to come. -/
def firstByte (byte : UInt8) : Option (Nat × List (UInt8 × UInt8)) :=
  if byte < 0x80 then some (byte.toNat, [])
  else if byte < 0xC2 then none
  else if byte < 0xE0 then some (byte.toNat % 32, [(0x80, 0xBF)])
  else if byte < 0xF0 then
    let second := (if byte = 0xE0 then 0xA0 else 0x80, if byte = 0xED then 0x9F else 0xBF)
    some (byte.toNat % 16, [second, (0x80, 0xBF)])
  else if byte < 0xF5 then
    let second := (if byte = 0xF0 then 0x90 else 0x80, if byte = 0xF4 then 0x8F else 0xBF)
    some (byte.toNat % 8, [second, (0x80, 0xBF), (0x80, 0xBF)])
  else none

/-- The number of a character that began like this, unless a byte is missing, and the bytes that
belong to it. -/
def furtherBytes (code : Nat) : List (UInt8 × UInt8) → List UInt8 → Option Nat × List UInt8
  | [], _ => (some code, [])
  | (low, high) :: bounds, byte :: rest =>
    if low ≤ byte ∧ byte ≤ high then
      let (found, taken) := furtherBytes (code * 64 + byte.toNat % 64) bounds rest
      (found, byte :: taken)
    else (none, [])
  | _, [] => (none, [])

/-- A text in UTF-8. Bytes that are no character but could begin one are read together. -/
def ofUtf8 (unread : List UInt8 → List CodePoint) : Nat → List UInt8 → List CodePoint
  | bound + 1, byte :: rest =>
    let (found, taken) :=
      match firstByte byte with
      | some (code, bounds) => furtherBytes code bounds rest
      | none => (none, [])
    let first :=
      match found with
      | some code => [.char (.ofNat code)]
      | none => unread (byte :: taken)
    first ++ ofUtf8 unread bound (rest.drop taken.length)
  | _, _ => []

/-- The bytes of a code point in UTF-8. -/
def utf8 : CodePoint → List UInt8
  | .char c => String.utf8EncodeChar c
  | point => point.kept?.toList

/-! ## Writing -/

/-- Why a text cannot be encoded: the first code points without a form, and those behind them that are
no better. -/
def unencodable? (encoding : Encoding) (starts goesOn : CodePoint → Bool) (text : List CodePoint) :
    Option Fault :=
  match text.span (!starts ·) with
  | (before, point :: rest) =>
    some (.unencodable encoding point.code before.length
      (before.length + (rest.takeWhile goesOn).length))
  | _ => none

/-- The text without surrogates. -/
def written (text : List CodePoint) : Except Fault String :=
  match unencodable? .utf8 (!isEncodable ·) (·.char?.isNone) text with
  | some fault => .error fault
  | none =>
    let text :=
      if text.all (·.char?.isSome) then text
      else
        let bytes := text.flatMap utf8
        ofUtf8 (fun _ => [.char '\ufffd']) bytes.length bytes
    .ok (toText text)

/-- Why a text cannot be sent as ASCII. -/
def beyondAscii? (text : String) : Option Fault :=
  unencodable? .ascii (·.ascii?.isNone) (·.ascii?.isNone) (ofText text)

end CodePoint

end LogAlert.Text
