/-
# LogAlert.Text.Digit -- decimal digits of all scripts, and integers written with them

Numbers in texts may be written with the decimal digits of any script (`digitValue?`). The digits
of each script are ten neighbouring code points, so the table holds the zeros alone. `readInt?`
reads an integer the way job fields and explicitly typed scalars are written: blanks around it, one
sign, and single underscores between digits are allowed.
-/
import LogAlert.Text.Blank

set_option autoImplicit false

namespace LogAlert.Text

/-- The code points of the digit zero in each script of Unicode 14. -/
def digitZeros : List Nat :=
  [48, 1632, 1776, 1984, 2406, 2534, 2662, 2790, 2918, 3046, 3174, 3302, 3430, 3558, 3664, 3792,
    3872, 4160, 4240, 6112, 6160, 6470, 6608, 6784, 6800, 6992, 7088, 7232, 7248, 42528, 43216,
    43264, 43472, 43504, 43600, 44016, 65296, 66720, 68912, 69734, 69872, 69942, 70096, 70384,
    70736, 70864, 71248, 71360, 71472, 71904, 72016, 72784, 73040, 73120, 92768, 92864, 93008,
    120782, 120792, 120802, 120812, 120822, 123200, 123632, 125264, 130032]

/-- The value of a decimal digit of any script. -/
def digitValue? (c : Char) : Option Nat :=
  (digitZeros.find? fun start => start ≤ c.toNat && c.toNat ≤ start + 9).map (c.toNat - ·)

/-- The character is a decimal digit of some script. -/
def isDigit (c : Char) : Bool := (digitValue? c).isSome

/-- The number that a list of digit values writes in the given base. -/
def ofDigits (base : Nat) (digits : List Nat) : Nat :=
  digits.foldl (fun number digit => base * number + digit) 0

/-- The digits of a number in ASCII, as a text. -/
def natText (n : Nat) : String := n.repr

/-- The decimal form of an integer, with a minus sign in front of a negative one. -/
def intText : Int → String
  | .ofNat n => natText n
  | .negSucc n => "-" ++ natText (n + 1)

/-- Digit values of characters in which single underscores may stand between digits. -/
def groupedDigits? (value : Char → Option Nat) : List Char → Option (List Nat)
  | [] => none
  | [c] => (value c).map fun d => [d]
  | c :: '_' :: rest => do
    let d ← value c
    let ds ← groupedDigits? value rest
    return d :: ds
  | c :: rest => do
    let d ← value c
    let ds ← groupedDigits? value rest
    return d :: ds

/-- What can be said of a text that should hold an integer. -/
inductive IntReading where
  /-- The text holds this integer. -/
  | value (n : Int)
  /-- The text is no integer. -/
  | malformed
  /-- The text has more digits than are read. -/
  | overlong (digits : Nat)
deriving DecidableEq, Repr

/-- Decimal numbers of more digits are neither read nor written. -/
def digitLimit : Nat := 4300

/-- The sign in front of the characters, and the characters behind it. -/
def splitSign : List Char → Bool × List Char
  | '-' :: rest => (true, rest)
  | '+' :: rest => (false, rest)
  | chars => (false, chars)

/-- Read a decimal integer with an optional sign, with blanks around it. -/
def readInt (text : String) : IntReading :=
  let (negative, digits) := splitSign (trimChars text.toList)
  match groupedDigits? digitValue? digits with
  | none => .malformed
  | some values =>
    if digitLimit < values.length then .overlong values.length
    else
      let number := ofDigits 10 values
      .value (if negative then -(number : Int) else number)

/-- The value of a digit in a base of at most sixteen; letters stand for the digits from ten on. -/
def digitIn? (base : Nat) (c : Char) : Option Nat :=
  let value :=
    match digitValue? c with
    | some d => some d
    | none =>
      if 'a' ≤ c ∧ c ≤ 'f' then some (c.toNat - 87)
      else if 'A' ≤ c ∧ c ≤ 'F' then some (c.toNat - 55)
      else none
  value.filter (· < base)

/-- The characters behind a zero and a letter that mark the base of a number, and behind one
underscore after them. -/
def afterBaseMark (letter : Char) (chars : List Char) : List Char :=
  match chars with
  | '0' :: mark :: rest =>
    if mark.toLower = letter then
      match rest with
      | '_' :: more => more
      | _ => rest
    else chars
  | _ => chars

/-- Read an integer in base two, eight or sixteen, which may be marked by `0b`, `0o` or `0x`. -/
def readIntIn (base : Nat) (letter : Char) (text : String) : Option Int :=
  let (negative, digits) := splitSign (trimChars text.toList)
  (groupedDigits? (digitIn? base) (afterBaseMark letter digits)).map fun values =>
    let number := ofDigits base values
    if negative then -(number : Int) else number

end LogAlert.Text
