/-
# LogAlert.Time.DateTime -- times of day, offsets and instants

A `DateTime` is a calendar day with a time of day to the microsecond and, if known, the offset of
its clock from universal time. An `Instant` is a point of universal time, in microseconds from the
start of 1970. Times are written in the extended form of ISO 8601 (`DateTime.text`): microseconds
are shown only if they are not zero, and seconds of an offset likewise.
-/
import LogAlert.Time.Date

set_option autoImplicit false

namespace LogAlert.Time

/-- Microseconds in a second. -/
def second : Int := 1000000

/-- Microseconds in a day. -/
def day : Int := 86400 * second

/-- A point of universal time, in microseconds from the start of 1970. -/
structure Instant where
  micros : Int
deriving DecidableEq, Repr, Inhabited

instance : LE Instant := ⟨fun a b => a.micros ≤ b.micros⟩
instance : LT Instant := ⟨fun a b => a.micros < b.micros⟩
instance (a b : Instant) : Decidable (a ≤ b) := inferInstanceAs (Decidable (a.micros ≤ b.micros))
instance (a b : Instant) : Decidable (a < b) := inferInstanceAs (Decidable (a.micros < b.micros))

/-- A calendar day with a time of day, and the offset of the clock from universal time in
microseconds, if it is known. -/
structure DateTime where
  date : Date
  hour : Nat
  minute : Nat
  second : Nat
  micro : Nat
  offset : Option Int
deriving DecidableEq, Repr, Inhabited

namespace DateTime

/-- The date and time with these numbers, if each of them is in its range. -/
def make (year : Int) (month day hour minute second micro : Nat) (offset : Option Int) :
    Except FieldError DateTime := do
  let date ← Date.make year month day
  if 23 < hour then .error .hour
  else if 59 < minute then .error .minute
  else if 59 < second then .error .second
  else .ok ⟨date, hour, minute, second, micro, offset⟩

/-- An offset is less than a day either way. -/
def checkOffset (micros : Int) : Except FieldError Int :=
  if day ≤ micros ∨ micros ≤ -day then .error (.offset micros) else .ok micros

/-- Microseconds on the time's own clock from the start of 1970. -/
def localMicros (t : DateTime) : Int :=
  t.date.dayNumber * day +
    ((t.hour : Int) * 3600 + (t.minute : Int) * 60 + (t.second : Int)) * Time.second + t.micro

/-- The point of universal time; a clock without a known offset shows universal time. -/
def instant (t : DateTime) : Instant := ⟨t.localMicros - t.offset.getD 0⟩

/-- The date and time that a clock shows so many microseconds from its start of 1970. -/
def ofLocalMicros (micros : Int) (offset : Option Int) : DateTime :=
  let days := micros.fdiv day
  let rest := (micros - days * day).toNat
  let seconds := rest / 1000000
  ⟨Date.ofDayNumber days, seconds / 3600, seconds / 60 % 60, seconds % 60, rest % 1000000, offset⟩

/-- The same time with universal time for an unknown offset. -/
def orUniversal (t : DateTime) : DateTime := { t with offset := some (t.offset.getD 0) }

/-- Microseconds behind a point, or nothing if there are none. -/
def microText (micro : Nat) : String := if micro = 0 then "" else "." ++ padded 6 micro

/-- An offset as a sign, hours and minutes, and seconds if they are not zero. -/
def offsetText (offset : Int) : String :=
  let size := offset.natAbs
  let seconds := size / 1000000
  let micro := size % 1000000
  (if offset < 0 then "-" else "+") ++ padded 2 (seconds / 3600) ++ ":" ++
    padded 2 (seconds / 60 % 60) ++
    (if seconds % 60 = 0 ∧ micro = 0 then ""
     else ":" ++ padded 2 (seconds % 60) ++ microText micro)

/-- The time of day, with the microseconds if they are not zero, and the offset if it is known. -/
def clockText (t : DateTime) : String :=
  padded 2 t.hour ++ ":" ++ padded 2 t.minute ++ ":" ++ padded 2 t.second ++ microText t.micro ++
    (match t.offset with | some offset => offsetText offset | none => "")

/-- Date and time with the letter T between them. -/
def text (t : DateTime) : String := t.date.text ++ "T" ++ t.clockText

/-- Date and time with a space between them. -/
def spacedText (t : DateTime) : String := t.date.text ++ " " ++ t.clockText

end DateTime

namespace Instant

/-- The date and time of an instant on a clock of universal time. -/
def dateTime (t : Instant) : DateTime := DateTime.ofLocalMicros t.micros (some 0)

/-- The first and the last instant that have a date. -/
def earliest : Instant := (DateTime.mk ⟨1, 1, 1⟩ 0 0 0 0 (some 0)).instant

@[inherit_doc earliest]
def latest : Instant := (DateTime.mk ⟨9999, 12, 31⟩ 23 59 59 999999 (some 0)).instant

/-- The instant has a date of the years 1 to 9999. -/
def hasDate (t : Instant) : Bool := earliest ≤ t && t ≤ latest

/-- The text of an instant on a clock of universal time. -/
def text (t : Instant) : String := t.dateTime.text

/-- Whole seconds from the start of 1970, rounded down. -/
def seconds (t : Instant) : Int := t.micros.fdiv second

end Instant

/-- An elapsed time split into days, seconds of a day and microseconds of a second. -/
def splitElapsed (micros : Int) : Int × Nat × Nat :=
  let days := micros.fdiv day
  let rest := (micros - days * day).toNat
  (days, rest / 1000000, rest % 1000000)

end LogAlert.Time
