/-
# LogAlert.Json.Read -- values from JSON text

The reader takes what `LogAlert.Json.Print` prints and every other JSON text: blanks between the
parts, all escapes, and the three names of values that are not finite. A later entry replaces an
earlier one with the same key, at the earlier one's place. Depth is bounded by the length of the
text, which is the fuel of the recursion.
-/
import LogAlert.Json.Print

set_option autoImplicit false

namespace LogAlert.Json

/-- The characters that may stand between the parts of a JSON text. -/
def isSpace (c : Char) : Bool := c = ' ' || c = '\t' || c = '\n' || c = '\r'

/-- The characters behind leading blanks. -/
def skip (chars : List Char) : List Char := chars.dropWhile isSpace

/-- The value of a hexadecimal digit. -/
def hexValue? (c : Char) : Option Nat :=
  if '0' ≤ c ∧ c ≤ '9' then some (c.toNat - 48)
  else if 'a' ≤ c ∧ c ≤ 'f' then some (c.toNat - 87)
  else if 'A' ≤ c ∧ c ≤ 'F' then some (c.toNat - 55)
  else none

/-- A UTF-16 unit of four hexadecimal digits, and the characters behind it. -/
def unit? : List Char → Option (Nat × List Char)
  | a :: b :: c :: d :: rest => do
    let a ← hexValue? a
    let b ← hexValue? b
    let c ← hexValue? c
    let d ← hexValue? d
    return (((a * 16 + b) * 16 + c) * 16 + d, rest)
  | _ => none

/-- The character that a backslash and a letter stand for. -/
def escape? (c : Char) : Option Char :=
  if c = '"' ∨ c = '\\' ∨ c = '/' then some c
  else if c = 'b' then some '\x08'
  else if c = 'f' then some '\x0c'
  else if c = 'n' then some '\n'
  else if c = 'r' then some '\r'
  else if c = 't' then some '\t'
  else none

/-- The character of an escaped UTF-16 unit. A high surrogate is joined with the low one that is
escaped behind it; a surrogate that stands alone becomes the replacement character. -/
def unicodeEscape? (chars : List Char) : Option (Char × List Char) := do
  let (unit, rest) ← unit? chars
  if unit < 0xD800 ∨ 0xDFFF < unit then return (Char.ofNat unit, rest)
  else
    match rest with
    | '\\' :: 'u' :: more =>
      match unit? more with
      | some (low, behind) =>
        if unit < 0xDC00 ∧ 0xDC00 ≤ low ∧ low ≤ 0xDFFF then
          return (Char.ofNat (0x10000 + (unit - 0xD800) * 0x400 + (low - 0xDC00)), behind)
        else return ('\ufffd', rest)
      | none => return ('\ufffd', rest)
    | _ => return ('\ufffd', rest)

/-- The characters of a JSON string up to its closing quote, and the characters behind it. The fuel
is the number of characters. -/
def stringBody? : Nat → List Char → Option (List Char × List Char)
  | 0, _ => none
  | _ + 1, [] => none
  | fuel + 1, c :: rest =>
    if c = '"' then some ([], rest)
    else if c = '\\' then
      match rest with
      | 'u' :: more => do
        let (x, behind) ← unicodeEscape? more
        let (xs, behind) ← stringBody? fuel behind
        return (x :: xs, behind)
      | e :: more => do
        let x ← escape? e
        let (xs, behind) ← stringBody? fuel more
        return (x :: xs, behind)
      | [] => none
    else if c.toNat < 32 then none
    else do
      let (xs, behind) ← stringBody? fuel rest
      return (c :: xs, behind)

/-- ASCII digits, and the characters behind them. -/
def digits (chars : List Char) : List Char × List Char :=
  (chars.takeWhile Char.isDigit, chars.dropWhile Char.isDigit)

/-- The number that ASCII digits write. -/
def digitsNat (chars : List Char) : Nat :=
  Text.ofDigits 10 (chars.map fun c => c.toNat - 48)

/-- The fraction behind the whole part of a number, if there is one. -/
def fraction (chars : List Char) : List Char × List Char :=
  match chars with
  | '.' :: rest =>
    match digits rest with
    | ([], _) => ([], chars)
    | (ds, behind) => (ds, behind)
  | _ => ([], chars)

/-- The exponent of a number, if there is one. -/
def exponent (chars : List Char) : Option Int × List Char :=
  match chars with
  | c :: rest =>
    if c = 'e' ∨ c = 'E' then
      let (negative, behind) := Text.splitSign rest
      match digits behind with
      | ([], _) => (none, chars)
      | (ds, more) => (some (if negative then -(digitsNat ds : Int) else digitsNat ds), more)
    else (none, chars)
  | [] => (none, [])

/-- A number without its sign. Without fraction and exponent it is an integer, of at most `limit`
digits if there is a limit. -/
def unsigned? (limit : Option Nat) (negative : Bool) (chars : List Char) :
    Option (Value × List Char) :=
  let (all, behind) := digits chars
  let (whole, rest) :=
    match all with
    | '0' :: more => (['0'], more ++ behind)
    | _ => (all, behind)
  if whole.isEmpty then none
  else
    let (places, rest) := fraction rest
    let (power, rest) := exponent rest
    if places.isEmpty ∧ power.isNone then
      if limit.any (· < whole.length) then none
      else
        let n : Int := digitsNat whole
        some (.int (if negative then -n else n), rest)
    else
      let x : Decimal := ⟨digitsNat (whole ++ places), power.getD 0 - places.length⟩
      some (.float (x.toBinary negative), rest)

/-- A number, or the name of a value that is not finite. -/
def number? (limit : Option Nat) (chars : List Char) : Option (Value × List Char) :=
  match chars with
  | 'N' :: 'a' :: 'N' :: rest => some (.float .nan, rest)
  | 'I' :: 'n' :: 'f' :: 'i' :: 'n' :: 'i' :: 't' :: 'y' :: rest =>
    some (.float (.infinite false), rest)
  | '-' :: 'I' :: 'n' :: 'f' :: 'i' :: 'n' :: 'i' :: 't' :: 'y' :: rest =>
    some (.float (.infinite true), rest)
  | '-' :: rest => unsigned? limit true rest
  | _ => unsigned? limit false chars

mutual

/-- A value, and the characters behind it. -/
def value? (limit : Option Nat) : Nat → List Char → Option (Value × List Char)
  | 0, _ => none
  | fuel + 1, input =>
    match input with
    | '"' :: rest => do
      let (s, behind) ← stringBody? (rest.length + 1) rest
      return (.text (String.ofList s), behind)
    | '[' :: rest =>
      match skip rest with
      | ']' :: behind => some (.list [], behind)
      | more => do
        let (xs, behind) ← items? limit fuel more
        return (.list xs, behind)
    | '\x7b' :: rest =>
      match skip rest with
      | '\x7d' :: behind => some (.map [], behind)
      | more => do
        let (xs, behind) ← entries? limit fuel [] more
        return (.map xs, behind)
    | 'n' :: 'u' :: 'l' :: 'l' :: rest => some (.null, rest)
    | 't' :: 'r' :: 'u' :: 'e' :: rest => some (.bool true, rest)
    | 'f' :: 'a' :: 'l' :: 's' :: 'e' :: rest => some (.bool false, rest)
    | _ => number? limit input

/-- The items of a list up to its closing bracket, and the characters behind that. -/
def items? (limit : Option Nat) : Nat → List Char → Option (List Value × List Char)
  | 0, _ => none
  | fuel + 1, input => do
    let (x, rest) ← value? limit fuel input
    match skip rest with
    | ',' :: more =>
      let (xs, behind) ← items? limit fuel (skip more)
      return (x :: xs, behind)
    | ']' :: behind => return ([x], behind)
    | _ => none

/-- The entries of a mapping up to its closing brace, written behind `earlier`, and the characters
behind the brace. -/
def entries? (limit : Option Nat) :
    Nat → List (Value × Value) → List Char → Option (List (Value × Value) × List Char)
  | 0, _, _ => none
  | fuel + 1, earlier, input =>
    match input with
    | '"' :: rest => do
      let (key, rest) ← stringBody? (rest.length + 1) rest
      match skip rest with
      | ':' :: rest =>
        let (x, rest) ← value? limit fuel (skip rest)
        let entries := Value.insertIn earlier (.text (String.ofList key)) x
        match skip rest with
        | ',' :: more => entries? limit fuel entries (skip more)
        | '\x7d' :: behind => return (entries, behind)
        | _ => none
      | _ => none
    | _ => none

end

/-- Read a whole JSON text. Integers have at most `limit` digits, if there is a limit. -/
def read? (limit : Option Nat) (text : String) : Option Value := do
  let input := skip text.toList
  let (x, rest) ← value? limit (input.length + 1) input
  if (skip rest).isEmpty then return x else none

end LogAlert.Json
