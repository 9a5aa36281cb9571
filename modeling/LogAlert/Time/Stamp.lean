/-
# LogAlert.Time.Stamp -- times given as numbers

A number stands for a time as the seconds since the start of 1970. A fraction is rounded to
microseconds, a half to the even one. Numbers beyond the clock's 64 bits, years beyond the
calendar's 32 bits, and years outside the calendar are faults; the year that is reported has been
cut to 32 bits.
-/
import LogAlert.Fault

set_option autoImplicit false

namespace LogAlert.Time

/-- The integer has a two's complement form of so many bits. -/
def fitsBits (bits : Nat) (n : Int) : Bool :=
  -((Nat.pow 2 (bits - 1) : Nat) : Int) ≤ n && n < ((Nat.pow 2 (bits - 1) : Nat) : Int)

/-- The instant of a time, if universal time has a date for it. -/
def universal (t : DateTime) : Except Fault Instant :=
  if t.instant.hasDate then .ok t.instant else .error .timeBeyondCalendar

/-- A span of so many minutes, in microseconds. -/
def minutes (n : Int) : Except Fault Int :=
  let span := n * 60 * second
  let days := span.fdiv day
  if !fitsBits 32 days then .error .beyondWord
  else if 999999999 < days.natAbs then .error (.spanBeyondDays days)
  else .ok span

/-- The instant so many minutes before another one. -/
def Instant.minutesBefore (t : Instant) (n : Int) : Except Fault Instant := do
  let span ← minutes n
  let start : Instant := ⟨t.micros - span⟩
  if start.hasDate then return start else throw .timeBeyondCalendar

/-- The year that a calendar counts from. -/
def calendarYear : Int := 1900

/-- The time of universal time so many seconds and microseconds after the start of 1970. -/
def ofSeconds (seconds : Int) (micro : Nat) : Except Fault DateTime :=
  if !fitsBits 64 seconds then .error .stampBeyondClock
  else
    let date := Date.ofDayNumber (seconds.fdiv 86400)
    if !fitsBits 32 (date.year - calendarYear) then .error .stampBeyondCalendar
    else
      let rest := (seconds.fmod 86400).toNat
      (DateTime.make (date.year.bmod (Nat.pow 2 32)) date.month date.day (rest / 3600) (rest / 60 % 60)
        (rest % 60) micro (some 0)).mapError .timeField

/-- The integer nearest to a finite value; a half goes to the even neighbour. -/
def nearestInt (x : Binary64) : Int :=
  match x.ratio? with
  | some (n, d) =>
    let size : Int := Binary64.roundHalfEven n.natAbs d
    if n < 0 then -size else size
  | none => 0

/-- Microseconds in a second, as a floating-point value. -/
def million : Binary64 := .ofRatio false 1000000 1

/-- The time of universal time so many seconds after the start of 1970. The fraction is taken out
exactly and multiplied in floating point before it is rounded. -/
def ofStamp (x : Binary64) : Except Fault DateTime :=
  match x with
  | .nan => .error .undefinedStamp
  | .infinite _ => .error .stampBeyondClock
  | .finite _ _ _ =>
    match x.ratio? with
    | none => .error .undefinedStamp
    | some (n, d) =>
      let whole := n.tdiv d
      let fraction := Binary64.ofSignedRatio (n - whole * d) d
      let micros := nearestInt (fraction.mul million)
      if 1000000 ≤ micros then ofSeconds (whole + 1) (micros - 1000000).toNat
      else if micros < 0 then ofSeconds (whole - 1) (micros + 1000000).toNat
      else ofSeconds whole micros.toNat

end LogAlert.Time
