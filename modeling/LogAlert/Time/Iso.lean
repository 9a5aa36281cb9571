/-
# LogAlert.Time.Iso -- reading times in ISO 8601 form

A time may be written with or without separators, by month and day or by week, with any separator
between date and time, with a fraction of a second of any length and with an offset. The reader
works on the bytes of the text, because the place of the separator is found by counting bytes.

The reader is lenient where the forms leave room: one byte that belongs to nothing may stand before
the offset, and whatever separates the seconds from further digits makes these a fraction.
-/
import LogAlert.Time.DateTime

set_option autoImplicit false

namespace LogAlert.Time.Iso

/-- Bytes of a text, as numbers. -/
abbrev Bytes := List UInt8

/-- Why a text is not read as a time. -/
inductive Error where
  /-- The text has none of the forms. -/
  | malformed
  /-- The text has a form, but a number in it is out of range. -/
  | field (error : FieldError)
deriving DecidableEq, Repr

/-- The byte at a place; behind the end, zero. -/
def byteAt (bytes : Bytes) (i : Nat) : UInt8 := (bytes[i]?).getD 0

/-- The byte of an ASCII character. -/
def code (c : Char) : UInt8 := c.toNat.toUInt8

/-- The value of an ASCII digit. -/
def digit? (byte : UInt8) : Option Nat :=
  if 48 ≤ byte ∧ byte ≤ 57 then some (byte.toNat - 48) else none

/-- The byte is an ASCII digit. -/
def isDigitByte (byte : UInt8) : Bool := (digit? byte).isSome

/-- A number of exactly `count` digits, and the bytes behind it. -/
def takeNumber? : Nat → Nat → Bytes → Option (Nat × Bytes)
  | 0, value, bytes => some (value, bytes)
  | _ + 1, _, [] => none
  | count + 1, value, byte :: rest =>
    match digit? byte with
    | some d => takeNumber? count (10 * value + d) rest
    | none => none

/-- How many bytes the date takes, judged by the places where hyphens, a week mark and digits
stand. -/
def dateLength? (bytes : Bytes) : Option Nat :=
  let size := bytes.length
  if size < 7 then none
  else if size = 7 then some 7
  else if byteAt bytes 4 = code '-' then
    if byteAt bytes 5 = code 'W' then
      if 8 < size ∧ byteAt bytes 8 = code '-' then
        if size = 9 then none
        else if 10 < size ∧ isDigitByte (byteAt bytes 10) then some 8
        else some 10
      else some 8
    else some 10
  else if byteAt bytes 4 = code 'W' then
    let stop := 7 + ((bytes.drop 7).takeWhile isDigitByte).length
    if stop < 9 then some stop else if stop % 2 = 0 then some 7 else some 8
  else some 8

/-- A hyphen, if the form has hyphens. -/
def skipHyphen? (expected : Bool) : Bytes → Option Bytes
  | [] => if expected then none else some []
  | byte :: rest =>
    if expected then (if byte = code '-' then some rest else none) else some (byte :: rest)

/-- Year, month and day of a date by week: the week, and the day if bytes remain for it. The weeks
of the year zero lie in no month. -/
def weekDate? (year : Nat) (hyphens : Bool) (bytes : Bytes) : Option (Int × Nat × Nat) := do
  let (week, rest) ← takeNumber? 2 0 bytes
  let day ←
    if rest.isEmpty then pure 1
    else do
      let rest ← skipHyphen? hyphens rest
      let (day, _) ← takeNumber? 1 0 rest
      pure day
  let date ← Date.ofWeek? year week day
  if year = 0 then return (1, 0, 0) else return (date.year, date.month, date.day)

/-- Year, month and day of the date that fills the bytes. -/
def date? (bytes : Bytes) : Option (Int × Nat × Nat) := do
  let (year, rest) ← takeNumber? 4 0 bytes
  let hyphens := byteAt rest 0 = code '-'
  let rest := if hyphens then rest.drop 1 else rest
  if byteAt rest 0 = code 'W' then weekDate? year hyphens (rest.drop 1)
  else do
    let (month, rest) ← takeNumber? 2 0 rest
    let rest ← skipHyphen? hyphens rest
    let (day, rest) ← takeNumber? 2 0 rest
    if rest.isEmpty then return ((year : Int), month, day) else none

/-- Hours, minutes, seconds and microseconds. -/
structure Clock where
  hour : Nat
  minute : Nat
  second : Nat
  micro : Nat

/-- The fraction of a second: six digits count, further ones are passed over. The flag says that
bytes remain. `size` bytes belong to the time, the others stand behind it. -/
def fraction? (size : Nat) (bytes : Bytes) : Option (Nat × Bool) := do
  let count := min size 6
  let (value, rest) ← takeNumber? count 0 bytes
  let rest := rest.dropWhile isDigitByte
  return (value * Nat.pow 10 (6 - count), byteAt rest 0 ≠ 0)

/-- The numbers of a time of day, read into `values`, and whether bytes remain behind it. Of the
bytes the first `size` belong to the time. `parts` more numbers may come; `colons` says whether
colons stand between them, once this is known. -/
def parts? : Nat → Option Bool → List Nat → Nat → Bytes → Option (List Nat × Nat × Bool)
  | 0, _, values, size, bytes => do
    let (micro, more) ← fraction? size bytes
    return (values, micro, more)
  | parts + 1, colons, values, size, bytes => do
    let (value, rest) ← takeNumber? 2 0 bytes
    let next := byteAt rest 0
    let colons := colons.getD (next = code ':')
    let values := values ++ [value]
    if size ≤ 3 then return (values, 0, next ≠ 0)
    else if colons ∧ next = code ':' then parts? parts (some colons) values (size - 3) (rest.drop 1)
    else if next = code '.' ∨ next = code ',' then
      let (micro, more) ← fraction? (size - 3) (rest.drop 1)
      return (values, micro, more)
    else if colons then none
    else parts? parts (some colons) values (size - 2) rest

/-- The time of day in the first `size` bytes, and whether bytes remain behind it. -/
def clock? (size : Nat) (bytes : Bytes) : Option (Clock × Bool) := do
  let (values, micro, more) ← parts? 3 none [] size bytes
  return (⟨(values[0]?).getD 0, (values[1]?).getD 0, (values[2]?).getD 0, micro⟩, more)

/-- The byte begins an offset. -/
def startsOffset (byte : UInt8) : Bool :=
  byte = code '+' || byte = code '-' || byte = code 'Z'

/-- The offset with which the bytes begin: its seconds and its microseconds. -/
def offset? : Bytes → Option (Int × Int)
  | [] => none
  | byte :: rest =>
    if byte = code 'Z' then (if byteAt rest 0 ≠ 0 then none else some (0, 0))
    else do
      let (clock, more) ← clock? rest.length rest
      if more then none
      else
        let sign : Int := if byte = code '-' then -1 else 1
        return (sign * (clock.hour * 3600 + clock.minute * 60 + clock.second : Nat),
          sign * clock.micro)

/-- The time of day and the offset, if there is one. -/
def time? (bytes : Bytes) : Option (Clock × Option (Int × Int)) := do
  let size := (bytes.takeWhile fun byte => !startsOffset byte).length
  let (clock, more) ← clock? size bytes
  match bytes.drop size with
  | [] => if more then none else return (clock, none)
  | rest =>
    let offset ← offset? rest
    return (clock, some offset)

/-- How many bytes the character has that begins with this byte. -/
def characterSize (byte : UInt8) : Nat :=
  if byte &&& 0x80 = 0 then 1
  else if byte &&& 0xf0 = 0xe0 then 3
  else if byte &&& 0xf0 = 0xf0 then 4
  else 2

/-- An offset in microseconds: without whole seconds it is universal time. -/
def makeOffset (parts : Int × Int) : Except FieldError Int :=
  if parts.1 = 0 then .ok 0 else DateTime.checkOffset (parts.1 * second + parts.2)

/-- The date and the time of day in a text. -/
def parts (text : String) : Option ((Int × Nat × Nat) × Clock × Option (Int × Int)) := do
  let bytes := text.toUTF8.toList
  let size ← dateLength? bytes
  let date ← date? (bytes.take size)
  if bytes.length ≤ size then return (date, ⟨0, 0, 0, 0⟩, none)
  else
    let (clock, offset) ← time? (bytes.drop (size + characterSize (byteAt bytes size)))
    return (date, clock, offset)

/-- Read a time in any of the forms. -/
def read (text : String) : Except Error DateTime :=
  match parts text with
  | none => .error .malformed
  | some ((year, month, day), clock, offset) => do
    let offset ← (offset.mapM makeOffset).mapError .field
    (DateTime.make year month day clock.hour clock.minute clock.second clock.micro offset).mapError
      .field

end LogAlert.Time.Iso
