/-
# LogAlert.Value.Shown -- values as texts

The text of a value, as it is compared with patterns and printed in messages. A text stands for
itself; inside a list or a mapping it is shown between quotes (`Value.shown`). `Value.coerced` is
the form that rules are matched against: null is empty, truth values are in lower case, and a
floating-point number without fraction is shown as an integer.

Integers of more than 4300 digits are not shown at all; `Value.overlong` finds them.
-/
import LogAlert.Value.Basic
import LogAlert.Text.Quoted

set_option autoImplicit false

namespace LogAlert

namespace Value

/-- Join texts with a separator. -/
def joined (separator : String) (parts : List String) : String := separator.intercalate parts

/-- A span of time, as it is shown in an offset. -/
def shownElapsed (micros : Int) : String :=
  let (days, seconds, rest) := Time.splitElapsed micros
  let part (name : String) (n : Int) : List String :=
    if n = 0 then [] else [name ++ "=" ++ Text.intText n]
  let parts := part "days" days ++ part "seconds" seconds ++ part "microseconds" rest
  "datetime.timedelta(" ++ (if parts.isEmpty then "0" else joined ", " parts) ++ ")"

/-- An offset from universal time, as it is shown in a time. -/
def shownOffset (offset : Int) : String :=
  if offset = 0 then "datetime.timezone.utc"
  else "datetime.timezone(" ++ shownElapsed offset ++ ")"

/-- A time as it is shown inside other values: the parts of the clock that are zero at the end are
left out, except hours and minutes. -/
def shownTime (t : Time.DateTime) : String :=
  let numbers : List Int := [t.date.year, t.date.month, t.date.day, t.hour, t.minute]
  let rest : List Int :=
    if t.micro ≠ 0 then [(t.second : Int), (t.micro : Int)]
    else if t.second ≠ 0 then [(t.second : Int)]
    else []
  "datetime.datetime(" ++ joined ", " ((numbers ++ rest).map Text.intText) ++
    (match t.offset with
     | some offset => ", tzinfo=" ++ shownOffset offset
     | none => "") ++ ")"

mutual

/-- A value as it is shown inside a list or a mapping. -/
def inner : Value → String
  | .null => "None"
  | .bool true => "True"
  | .bool false => "False"
  | .int n => Text.intText n
  | .float x => x.shown
  | .text s => Text.quoted s
  | .bytes octets => Text.quotedBytes octets
  | .date d =>
    "datetime.date(" ++
      joined ", " [Text.intText d.year, Text.natText d.month, Text.natText d.day] ++ ")"
  | .time t => shownTime t
  | .list items => "[" ++ joined ", " (innerList items) ++ "]"
  | .pair a b => "(" ++ inner a ++ ", " ++ inner b ++ ")"
  | .set items => if items.isEmpty then "set()" else "\x7b" ++ joined ", " (innerList items) ++ "\x7d"
  | .map entries => "\x7b" ++ joined ", " (innerEntries entries) ++ "\x7d"

/-- Each value as it is shown inside a list. -/
def innerList : List Value → List String
  | [] => []
  | x :: xs => inner x :: innerList xs

/-- Each entry as it is shown inside a mapping. -/
def innerEntries : List (Value × Value) → List String
  | [] => []
  | (k, v) :: rest => (inner k ++ ": " ++ inner v) :: innerEntries rest

end

/-- A value as a text of its own. -/
def shown : Value → String
  | .text s => s
  | .date d => d.text
  | .time t => t.spacedText
  | v => inner v

/-- The integer has more decimal digits than are shown. -/
def isOverlong (n : Int) : Bool := Text.digitLimit < Decimal.width n.natAbs

mutual

/-- The value holds an integer with more digits than are shown. -/
def overlong : Value → Bool
  | .int n => isOverlong n
  | .list items => overlongList items
  | .set items => overlongList items
  | .pair a b => overlong a || overlong b
  | .map entries => overlongEntries entries
  | _ => false

@[inherit_doc overlong]
def overlongList : List Value → Bool
  | [] => false
  | x :: xs => overlong x || overlongList xs

@[inherit_doc overlong]
def overlongEntries : List (Value × Value) → Bool
  | [] => false
  | (k, v) :: rest => overlong k || overlong v || overlongEntries rest

end

/-- The form of a value that patterns are matched against. -/
def coerced : Value → String
  | .null => ""
  | .bool true => "true"
  | .bool false => "false"
  | .float x =>
    if x.isIntegral then (match x.truncate? with | some n => Text.intText n | none => x.shown)
    else x.shown
  | v => shown v

end Value

end LogAlert
