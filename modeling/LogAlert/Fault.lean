/-
# LogAlert.Fault -- what can be wrong with data of unknown shape

Data of any shape may lack an entry, have a value of the wrong kind or a number out of range. The
cause is a `Fault`; its wording is `Fault.message`. Operations on data stop at the first fault.
-/
import LogAlert.Value.Shown

set_option autoImplicit false

namespace LogAlert

/-- How the characters of a text are encoded. -/
inductive Encoding where
  | ascii
  | utf8
deriving DecidableEq, Repr

/-- Why an operation on data failed. Kinds are named as by `Value.kindName`. -/
inductive Fault where
  /-- A mapping lacks this entry. -/
  | missingKey (key : String)
  /-- A value of this kind has no such operation. -/
  | noOperation (kind operation : String)
  /-- A value of this kind has no entries to look up. -/
  | noEntries (kind : String)
  /-- A text is looked into by a name. -/
  | textByName
  /-- A list is looked into by a name. -/
  | listByName
  /-- A value of this kind has no items. -/
  | noItems (kind : String)
  /-- A value of this kind has no parts to be replaced. -/
  | noParts (kind : String)
  /-- A value of this kind cannot be a key. -/
  | noKey (kind : String)
  /-- A value of this kind has no JSON form. -/
  | noJson (kind : String)
  /-- A value of this kind cannot be a key in JSON. -/
  | noJsonKey (kind : String)
  /-- A value of this kind is no number. -/
  | noNumber (kind : String)
  /-- A text is no integer in this base; it is given as it is shown. -/
  | noInteger (base : Nat) (shown : String)
  /-- A text is no floating-point number; it is given as it is shown. -/
  | noFloat (shown : String)
  /-- A text without characters where a number should be. -/
  | noDigits
  /-- An integer is too large for a floating-point number. -/
  | beyondFloat
  /-- A number is no code point of a character. -/
  | noCharacter
  /-- A number needs more than 32 bits. -/
  | beyondWord
  /-- A number is read that has too many digits. -/
  | overlongNumeral (digits : Nat)
  /-- A number is written that has too many digits. -/
  | overlongInteger
  /-- The undefined number is no integer. -/
  | undefinedInteger
  /-- An infinite number is no integer. -/
  | infiniteInteger
  /-- A text is no time; it is given as it is shown. -/
  | noTime (shown : String)
  /-- A number of a date or a time of day is out of range. -/
  | timeField (error : Time.FieldError)
  /-- A span of time has so many days. -/
  | spanBeyondDays (days : Int)
  /-- An integer needs more than the 64 bits of a stored number. -/
  | beyondColumn
  /-- The item at this place of a list of texts is a value of this kind. -/
  | noTextItem (place : Nat) (kind : String)
  /-- A text of several lines where one line is expected. -/
  | severalLines
  /-- A line of addresses ends in the middle of one. -/
  | addressCutShort
  /-- A part of an address has nothing in it. -/
  | addressEmpty
  /-- A part of an address has a line break in it. -/
  | addressBreaks
  /-- Something is looked up by a name that stands for nothing yet. -/
  | unassigned (name : String)
  /-- A value of this kind is no path. -/
  | noPath (kind : String)
  /-- A time stamp needs more than 64 bits. -/
  | stampBeyondClock
  /-- The year of a time stamp needs more than 32 bits. -/
  | stampBeyondCalendar
  /-- The undefined number is no time stamp. -/
  | undefinedStamp
  /-- A time lies outside the years 1 to 9999. -/
  | timeBeyondCalendar
  /-- The code points from one place of a text to another have no form in the encoding. The first of
  them is given. -/
  | unencodable (encoding : Encoding) (code first last : Nat)
  /-- A selection is neither a keyword list nor a field map, but a value of this kind. -/
  | unsupportedSelection (kind : String)
deriving DecidableEq, Repr

/-- The message for a number of a date or a time of day that is out of range. -/
def Time.FieldError.message : Time.FieldError → String
  | .year value => "year " ++ Text.intText value ++ " is out of range"
  | .month => "month must be in 1..12"
  | .day => "day is out of range for month"
  | .hour => "hour must be in 0..23"
  | .minute => "minute must be in 0..59"
  | .second => "second must be in 0..59"
  | .offset micros =>
    "offset must be a timedelta strictly between -timedelta(hours=24) and timedelta(hours=24), not "
      ++ Value.shownElapsed micros ++ "."

/-- The name of an encoding, and why it has no form for a code point. -/
def Encoding.limits : Encoding → String × String
  | .ascii => ("ascii", "ordinal not in range(128)")
  | .utf8 => ("utf-8", "surrogates not allowed")

/-- The message for code points that cannot be encoded. -/
def Encoding.message (encoding : Encoding) (code first last : Nat) : String :=
  let (name, reason) := encoding.limits
  let found :=
    if first = last then
      "character '" ++ String.ofList (Text.escapeCode code) ++ "' in position " ++ Text.natText first
    else "characters in position " ++ Text.natText first ++ "-" ++ Text.natText last
  Text.quoted name ++ " codec can't encode " ++ found ++ ": " ++ reason

/-- The advice at the end of messages on numbers with too many digits. -/
def Fault.digitAdvice : String :=
  "; use sys.set_int_max_str_digits() to increase the limit"

/-- The beginning of messages on numbers with too many digits. -/
def Fault.digitLimitText : String :=
  "Exceeds the limit (" ++ Text.natText Text.digitLimit ++
    " digits) for integer string conversion"

/-- The message for a fault. -/
def Fault.message : Fault → String
  | .missingKey key => Text.quoted key
  | .noOperation kind operation =>
    Text.quoted kind ++ " object has no attribute " ++ Text.quoted operation
  | .noEntries kind => Text.quoted kind ++ " object is not subscriptable"
  | .textByName => "string indices must be integers, not 'str'"
  | .listByName => "list indices must be integers or slices, not str"
  | .noItems kind => Text.quoted kind ++ " object is not iterable"
  | .noParts kind => Text.quoted kind ++ " object does not support item assignment"
  | .noKey kind => "unhashable type: " ++ Text.quoted kind
  | .noJson kind => "Object of type " ++ kind ++ " is not JSON serializable"
  | .noJsonKey kind => "keys must be str, int, float, bool or None, not " ++ kind
  | .noNumber kind =>
    "int() argument must be a string, a bytes-like object or a real number, not " ++
      Text.quoted kind
  | .noInteger base shown =>
    "invalid literal for int() with base " ++ Text.natText base ++ ": " ++ shown
  | .noFloat shown => "could not convert string to float: " ++ shown
  | .noDigits => "string index out of range"
  | .beyondFloat => "int too large to convert to float"
  | .noCharacter => "chr() arg not in range(0x110000)"
  | .beyondWord => "Python int too large to convert to C int"
  | .overlongNumeral digits =>
    Fault.digitLimitText ++ ": value has " ++ Text.natText digits ++ " digits" ++
      Fault.digitAdvice
  | .overlongInteger => Fault.digitLimitText ++ Fault.digitAdvice
  | .undefinedInteger => "cannot convert float NaN to integer"
  | .infiniteInteger => "cannot convert float infinity to integer"
  | .noTime shown => "Invalid isoformat string: " ++ shown
  | .timeField error => error.message
  | .spanBeyondDays days =>
    "days=" ++ Text.intText days ++ "; must have magnitude <= 999999999"
  | .beyondColumn => "Python int too large to convert to SQLite INTEGER"
  | .noTextItem place kind =>
    "sequence item " ++ Text.natText place ++ ": expected str instance, " ++ kind ++ " found"
  | .severalLines => "Header values may not contain linefeed or carriage return characters"
  | .addressCutShort => "string index out of range"
  | .addressEmpty => "list index out of range"
  | .addressBreaks => "invalid arguments; address parts cannot contain CR or LF"
  | .unassigned name =>
    "cannot access local variable " ++ Text.quoted name ++ " where it is not associated with a value"
  | .noPath kind => "expected str, bytes or os.PathLike object, not " ++ kind
  | .stampBeyondClock => "timestamp out of range for platform time_t"
  | .stampBeyondCalendar => "[Errno 75] Value too large for defined data type"
  | .undefinedStamp => "Invalid value NaN (not a number)"
  | .timeBeyondCalendar => "date value out of range"
  | .unencodable encoding code first last => encoding.message code first last
  | .unsupportedSelection kind => "Unsupported selection type: " ++ kind

namespace Value

/-- The text that a value is matched as, if its integers are not too long to be shown. -/
def coerce (v : Value) : Except Fault String :=
  match v with
  | .float _ => .ok v.coerced
  | _ => if v.overlong then .error .overlongInteger else .ok v.coerced

/-- The text of a value, if its integers are not too long to be shown. -/
def display (v : Value) : Except Fault String :=
  if v.overlong then .error .overlongInteger else .ok v.shown

/-- The integer that a value is taken for where a count is expected. -/
def toInt : Value → Except Fault Int
  | .bool b => .ok (if b then 1 else 0)
  | .int n => .ok n
  | .float .nan => .error .undefinedInteger
  | .float x => match x.truncate? with
    | some n => .ok n
    | none => .error .infiniteInteger
  | .text s => match Text.readInt s with
    | .value n => .ok n
    | .malformed => .error (.noInteger 10 (Text.quoted s))
    | .overlong digits => .error (.overlongNumeral digits)
  | v => .error (.noNumber v.fullKindName)

/-- The value at a key of a mapping; null if there is none. Only mappings have keys. -/
def getOf (v : Value) (key : String) : Except Fault Value :=
  match v with
  | .map entries => .ok (get entries key)
  | v => .error (.noOperation v.fullKindName "get")

/-- The value at a key that a mapping must have. -/
def demand (v : Value) (key : String) : Except Fault Value :=
  match v with
  | .map entries =>
    match at? entries key with
    | some x => .ok x
    | none => .error (.missingKey key)
  | .list _ => .error .listByName
  | .text _ => .error .textByName
  | v => .error (.noEntries v.fullKindName)

/-- The entries of a mapping. -/
def itemsOf (v : Value) : Except Fault (List Entry) :=
  match v with
  | .map entries => .ok entries
  | v => .error (.noOperation v.fullKindName "items")

/-- The text without blanks at its ends; only texts have such. -/
def trimmed (v : Value) : Except Fault String :=
  match v with
  | .text s => .ok (Text.trim s)
  | v => .error (.noOperation v.fullKindName "strip")

/-- The values that a value is made of, one after the other: the characters of a text, the keys of a
mapping, the items of a list. -/
def iterated (v : Value) : Except Fault (List Value) :=
  match v with
  | .text s => .ok (s.toList.map fun c => .text (String.singleton c))
  | .bytes octets => .ok (octets.map fun octet => .int octet.toNat)
  | .list items => .ok items
  | .set items => .ok items
  | .pair a b => .ok [a, b]
  | .map entries => .ok (entries.map (·.1))
  | v => .error (.noItems v.fullKindName)

/-- Dates and times as texts; other values as they are. -/
def dated : Value → Value
  | .date d => .text d.text
  | .time t => .text t.text
  | v => v

end Value

end LogAlert
