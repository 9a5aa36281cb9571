/-
# LogAlert.Time.Date -- calendar days

Days of the Gregorian calendar, extended to the years 1 to 9999, and their number in days from the
first of January 1970 (`Date.dayNumber`, `Date.ofDayNumber`). The calendar is counted in eras of 400
years that begin in March, so that a leap day is the last day of its year.
-/
import LogAlert.Text.Digit

set_option autoImplicit false

namespace LogAlert.Time

/-- A calendar day. -/
structure Date where
  year : Int
  month : Nat
  day : Nat
deriving DecidableEq, Repr, Inhabited

/-- Why a date, a time of day or an offset from universal time is refused. -/
inductive FieldError where
  | year (value : Int)
  | month
  | day
  | hour
  | minute
  | second
  /-- The offset is a whole day or more; it is given in microseconds. -/
  | offset (micros : Int)
deriving DecidableEq, Repr

/-- A year of 366 days. -/
def isLeap (year : Int) : Bool := year % 4 == 0 && (year % 100 != 0 || year % 400 == 0)

/-- The number of days of a month. -/
def daysInMonth (year : Int) (month : Nat) : Nat :=
  if month = 2 then (if isLeap year then 29 else 28)
  else if month = 4 ∨ month = 6 ∨ month = 9 ∨ month = 11 then 30
  else 31

namespace Date

/-- The date with these numbers, if the year is from 1 to 9999 and the day exists. -/
def make (year : Int) (month day : Nat) : Except FieldError Date :=
  if year < 1 ∨ 9999 < year then .error (.year year)
  else if month < 1 ∨ 12 < month then .error .month
  else if day < 1 ∨ daysInMonth year month < day then .error .day
  else .ok ⟨year, month, day⟩

/-- Days from the first of January 1970. -/
def dayNumber (date : Date) : Int :=
  let year := if date.month ≤ 2 then date.year - 1 else date.year
  let era := year.fdiv 400
  let yearOfEra := year - era * 400
  let monthFromMarch : Int := (date.month + 9) % 12
  let dayOfYear := (153 * monthFromMarch + 2) / 5 + (date.day : Int) - 1
  let dayOfEra := yearOfEra * 365 + yearOfEra / 4 - yearOfEra / 100 + dayOfYear
  era * 146097 + dayOfEra - 719468

/-- The date that is so many days from the first of January 1970. -/
def ofDayNumber (number : Int) : Date :=
  let shifted := number + 719468
  let era := shifted.fdiv 146097
  let dayOfEra := shifted - era * 146097
  let yearOfEra :=
    (dayOfEra - dayOfEra / 1460 + dayOfEra / 36524 - dayOfEra / 146096) / 365
  let dayOfYear := dayOfEra - (365 * yearOfEra + yearOfEra / 4 - yearOfEra / 100)
  let monthFromMarch := (5 * dayOfYear + 2) / 153
  let day := dayOfYear - (153 * monthFromMarch + 2) / 5 + 1
  let month := if monthFromMarch < 10 then monthFromMarch + 3 else monthFromMarch - 9
  let year := yearOfEra + era * 400
  ⟨if month ≤ 2 then year + 1 else year, month.toNat, day.toNat⟩

/-- The day of the week, from 0 for Monday to 6 for Sunday. -/
def weekday (date : Date) : Int := (date.dayNumber + 3) % 7

/-- The number of the Monday with which the first week of a year begins: the week that holds the
year's first Thursday. -/
def firstMonday (year : Int) : Int :=
  let first : Date := ⟨year, 1, 1⟩
  let monday := first.dayNumber - first.weekday
  if 3 < first.weekday then monday + 7 else monday

/-- The year has a week of number 53. -/
def hasWeek53 (year : Int) : Bool :=
  let first := (Date.mk year 1 1).weekday
  first == 3 || (first == 2 && isLeap year)

/-- The date of a day in a numbered week, if there are such a week and day. -/
def ofWeek? (year : Int) (week day : Nat) : Option Date :=
  if week = 0 ∨ 53 < week ∨ (week = 53 ∧ hasWeek53 year = false) then none
  else if day = 0 ∨ 7 < day then none
  else some (ofDayNumber (firstMonday year + ((week : Int) - 1) * 7 + (day : Int) - 1))

end Date

/-- A number with zeros in front up to the given width. -/
def padded (width n : Nat) : String :=
  let digits := Nat.toDigits 10 n
  String.ofList (List.replicate (width - digits.length) '0' ++ digits)

/-- A date as year, month and day with hyphens. -/
def Date.text (date : Date) : String :=
  padded 4 date.year.toNat ++ "-" ++ padded 2 date.month ++ "-" ++ padded 2 date.day

end LogAlert.Time
