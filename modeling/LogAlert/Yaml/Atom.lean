/-
# LogAlert.Yaml.Atom -- the values of typed scalars

The value that a scalar of a given type has. Scalars whose type was found by their form are nearly
always values; a scalar with an explicit tag may not be, and a date may have the form of one without
being in the calendar. Such scalars are faults of their own, apart from malformed documents.
-/
import LogAlert.Yaml.Tag

set_option autoImplicit false

namespace LogAlert.Yaml

/-- The text without underscores. -/
def withoutGroups (text : String) : List Char := text.toList.filter (· ≠ '_')

/-- The numbers of a sexagesimal text are its places, the last one being the units. -/
def sexagesimal (places : List Int) : Int := places.foldl (fun n d => n * 60 + d) 0

/-- Read a decimal integer, or say why it is none. -/
def decimalInt (chars : List Char) : Except Fault Int := (Value.text (String.ofList chars)).toInt

/-- Read an integer in another base, or say why it is none. -/
def intIn (base : Nat) (letter : Char) (chars : List Char) : Except Fault Int :=
  let text := String.ofList chars
  match Text.readIntIn base letter text with
  | some n => .ok n
  | none => .error (.noInteger base (Text.quoted text))

/-- The integer that an integer scalar writes: binary behind `0b`, hexadecimal behind `0x`, octal
behind another zero, sexagesimal with colons, and else decimal. -/
def intValue (text : String) : Except Fault Int := do
  let chars := withoutGroups text
  if chars.isEmpty then .error .noDigits
  else
    let sign : Int := if chars.head? = some '-' then -1 else 1
    let body := afterSign chars
    let n ←
      match body with
      | [] => .error .noDigits
      | ['0'] => .ok 0
      | '0' :: 'b' :: rest => intIn 2 'b' rest
      | '0' :: 'x' :: rest => intIn 16 'x' rest
      | '0' :: _ => intIn 8 'o' body
      | _ =>
        if ':' ∈ body then do
          let places ← (String.ofList body |>.splitOn ":").mapM fun part => decimalInt part.toList
          pure (sexagesimal places)
        else decimalInt body
    return sign * n

/-- Read a floating-point number, or say why it is none. -/
def floatIn (chars : List Char) : Except Fault Binary64 :=
  let text := String.ofList chars
  match Binary64.read? text with
  | some x => .ok x
  | none => .error (.noFloat (Text.quoted text))

/-- The sum of the places of a sexagesimal number, from the last one on, each sum rounded. -/
def sexagesimalSum : List Binary64 → Int → Binary64 → Except Fault Binary64
  | [], _, sum => .ok sum
  | place :: rest, unit, sum =>
    match Binary64.ofInt? unit with
    | some factor => sexagesimalSum rest (unit * 60) (sum.add (place.mul factor))
    | none => .error .beyondFloat

/-- The number that a floating-point scalar writes. -/
def floatValue (text : String) : Except Fault Binary64 := do
  let chars := (Text.lower (String.ofList (withoutGroups text))).toList
  if chars.isEmpty then .error .noDigits
  else
    let negative := chars.head? = some '-'
    let body := afterSign chars
    if body = ".inf".toList then return .infinite negative
    else if body = ".nan".toList then return .nan
    else
      let x ←
        if ':' ∈ body then do
          let places ← (String.ofList body |>.splitOn ":").mapM fun part => floatIn part.toList
          sexagesimalSum places.reverse 1 (.zero false)
        else floatIn body
      return if negative then x.neg else x

/-- The truth value that a word stands for. -/
def boolValue (text : String) : Except Fault Bool :=
  match boolWords.lookup (Text.lower text) with
  | some b => .ok b
  | none => .error (.missingKey (Text.lower text))

/-- The number of leading digits that a date or time may have at a place, at most two. -/
def takeTwo (chars : List Char) : Nat × List Char :=
  let digits := (chars.take 2).takeWhile Char.isDigit
  (Text.ofDigits 10 (digits.map fun c => c.toNat - 48), chars.drop digits.length)

/-- The digits of a fraction of a second as microseconds. -/
def fractionMicros (digits : List Char) : Nat :=
  Text.ofDigits 10 (((digits ++ List.replicate 6 '0').take 6).map fun c => c.toNat - 48)

/-- The offset at the end of a time, in microseconds. -/
def offsetValue (chars : List Char) : Except Time.FieldError (Option Int) :=
  match chars.dropWhile fun c => c = ' ' || c = '\t' with
  | 'Z' :: _ => .ok (some 0)
  | sign :: rest =>
    if sign = '+' ∨ sign = '-' then do
      let (hours, rest) := takeTwo rest
      let (minutes, _) := takeTwo (rest.drop 1)
      let size : Int := (hours * 60 + minutes : Nat) * 60 * Time.second
      let offset ← Time.DateTime.checkOffset (if sign = '-' then -size else size)
      return some offset
    else .ok none
  | [] => .ok none

/-- The date or time of a scalar that has the form of one. -/
def timestampValue (text : String) : Except Fault Value := do
  let chars := text.toList
  let year := Text.ofDigits 10 ((chars.take 4).map fun c => c.toNat - 48)
  let (month, rest) := takeTwo (chars.drop 5)
  let (day, rest) := takeTwo (rest.drop 1)
  if atEnd rest then
    match Time.Date.make year month day with
    | .ok date => return .date date
    | .error e => .error (.timeField e)
  else
    let rest := (rest.drop 1).dropWhile fun c => c = ' ' || c = '\t'
    let (hour, rest) := takeTwo rest
    let (minute, rest) := takeTwo (rest.drop 1)
    let (second, rest) := takeTwo (rest.drop 1)
    let (micro, rest) :=
      match rest with
      | '.' :: more => (fractionMicros (more.takeWhile Char.isDigit), more.dropWhile Char.isDigit)
      | _ => (0, rest)
    let made := do
      let offset ← offsetValue rest
      Time.DateTime.make year month day hour minute second micro offset
    match made with
    | .ok t => return .time t
    | .error e => .error (.timeField e)

/-- A date with one or two digits for month and day, without a time of day. -/
def isLooseDateForm (chars : List Char) : Bool :=
  ((afterDigits? 4 chars).bind (afterChar? '-')).any fun rest =>
    (afterOneOrTwo rest).any fun rest =>
      (afterChar? '-' rest).any fun rest => (afterOneOrTwo rest).any atEnd

/-- The date or time of a scalar. -/
def timeValue (text : String) : Except Fault Value :=
  if isLooseDateForm text.toList || isTimeForm text.toList then timestampValue text
  else .error (.noOperation "NoneType" "groupdict")

/-- The digit values of base 64. -/
def base64Value? (c : Char) : Option Nat :=
  let n := c.toNat
  if 'A' ≤ c ∧ c ≤ 'Z' then some (n - 65)
  else if 'a' ≤ c ∧ c ≤ 'z' then some (n - 71)
  else if c.isDigit then some (n + 4)
  else if c = '+' then some 62
  else if c = '/' then some 63
  else none

/-- The bytes written in base 64. `kept` are the values of the digits of an unfinished group of
four, `pads` counts the padding signs behind them; other characters are passed over. -/
def base64Bytes? (kept : List Nat) (pads : Nat) : List Char → Option (List UInt8)
  | [] => if kept.isEmpty then some [] else none
  | c :: rest =>
    if c = '=' then
      if 2 ≤ kept.length then
        if 4 ≤ kept.length + (pads + 1) then some [] else base64Bytes? kept (pads + 1) rest
      else base64Bytes? kept pads rest
    else
      match base64Value? c with
      | none => base64Bytes? kept pads rest
      | some d =>
        match kept with
        | [] => base64Bytes? [d] 0 rest
        | [a] => (base64Bytes? [a, d] 0 rest).map ((a * 4 + d / 16).toUInt8 :: ·)
        | [a, b] => (base64Bytes? [a, b, d] 0 rest).map ((b % 16 * 16 + d / 4).toUInt8 :: ·)
        | _ :: _ :: k :: _ => (base64Bytes? [] 0 rest).map ((k % 4 * 64 + d).toUInt8 :: ·)

/-- The value of a scalar of the given type, if scalars can have that type. -/
def atom? (tag : Tag) (text : String) : Option (Except Error Value) :=
  let lift {α : Type} (f : α → Value) (x : Except Fault α) : Except Error Value :=
    (x.map f).mapError .scalar
  match tag with
  | .null => some (.ok .null)
  | .bool => some (lift .bool (boolValue text))
  | .int => some (lift .int (intValue text))
  | .float => some (lift .float (floatValue text))
  | .timestamp => some (lift id (timeValue text))
  | .text => some (.ok (.text text))
  | .binary => some <|
    if text.toList.all fun c => c.toNat < 128 then
      match base64Bytes? [] 0 text.toList with
      | some octets => .ok (.bytes octets)
      | none => .error .malformed
    else .error .malformed
  | _ => none

end LogAlert.Yaml
