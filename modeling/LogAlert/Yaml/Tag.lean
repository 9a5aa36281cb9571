/-
# LogAlert.Yaml.Tag -- the types of YAML scalars

The type of a node is named by a tag. A plain scalar without a tag takes the type that its text has
the form of (`implicitTag`): a truth value, a number, null or a date, and otherwise a text. The
forms are those of YAML 1.1. A text also has one of the forms if it has it up to a line break at its
end.
-/
import LogAlert.Yaml.Token

set_option autoImplicit false

namespace LogAlert.Yaml

/-- The type of a node. -/
inductive Tag where
  | null
  | bool
  | int
  | float
  | binary
  | timestamp
  | omap
  | pairs
  | set
  | text
  | sequence
  | mapping
  /-- The key under which mappings are merged into another. -/
  | merge
  /-- The key of a mapping's own value. -/
  | value
  /-- A type that has no values here. -/
  | unknown
deriving DecidableEq, Repr

/-- What the names of the known types begin with. -/
def tagDomain : String := "tag:yaml.org,2002:"

/-- The known types by name. -/
def tagNames : List (String × Tag) :=
  [("null", .null), ("bool", .bool), ("int", .int), ("float", .float), ("binary", .binary),
    ("timestamp", .timestamp), ("omap", .omap), ("pairs", .pairs), ("set", .set), ("str", .text),
    ("seq", .sequence), ("map", .mapping), ("merge", .merge), ("value", .value)]

/-- The type of this name. -/
def Tag.ofName (name : String) : Tag :=
  ((tagNames.find? fun entry => tagDomain ++ entry.1 = name).map (·.2)).getD .unknown

/-! ## Forms of plain scalars -/

/-- The characters end here, or before a last line break. -/
def atEnd (chars : List Char) : Bool := chars == [] || chars == ['\n']

/-- Digits and underscores. -/
def isGroupChar (c : Char) : Bool := c.isDigit || c = '_'

/-- The characters behind an optional sign. -/
def afterSign : List Char → List Char
  | '+' :: rest => rest
  | '-' :: rest => rest
  | chars => chars

/-- Words for truth values, in lower case. -/
def boolWords : List (String × Bool) :=
  [("yes", true), ("no", false), ("true", true), ("false", false), ("on", true), ("off", false)]

/-- The word in lower case, with a capital first letter, or in capitals. -/
def spellings (word : String) : List String :=
  [word, word.capitalize, word.toUpper]

/-- The characters are one of the words, up to a last line break. -/
def isWord (words : List String) (chars : List Char) : Bool :=
  words.any fun word => chars == word.toList || chars == word.toList ++ ['\n']

/-- The form of a truth value. -/
def isBoolForm (chars : List Char) : Bool :=
  isWord (boolWords.flatMap fun word => spellings word.1) chars

/-- The form of null. -/
def isNullForm (chars : List Char) : Bool :=
  isWord ("" :: "~" :: spellings "null") chars

/-- An exponent with a sign, if there is one, up to the end. -/
def endsInExponent (chars : List Char) : Bool :=
  atEnd chars ||
    match chars with
    | e :: sign :: digit :: rest =>
      (e = 'e' || e = 'E') && (sign = '+' || sign = '-') && digit.isDigit &&
        atEnd (rest.dropWhile Char.isDigit)
    | _ => false

/-- Sexagesimal places: at least one group of a colon and a number below sixty. The result lists the
characters behind each possible last group. -/
def afterSixties : List Char → List (List Char)
  | ':' :: a :: b :: rest =>
    let one := if a.isDigit then (b :: rest) :: afterSixties (b :: rest) else []
    let two := if '0' ≤ a && a ≤ '5' && b.isDigit then rest :: afterSixties rest else []
    two ++ one
  | [':', a] => if a.isDigit then [[]] else []
  | _ => []

/-- A point and digits, up to the end. -/
def endsInFraction (chars : List Char) : Bool :=
  match chars with
  | '.' :: rest => atEnd (rest.dropWhile isGroupChar)
  | _ => false

/-- The form of a floating-point number. -/
def isFloatForm (chars : List Char) : Bool :=
  let body := afterSign chars
  let isName (words : List String) (chars : List Char) : Bool :=
    isWord (words.map ("." ++ ·)) chars
  (match body with
   | d :: _ =>
     d.isDigit &&
       (let rest := body.dropWhile isGroupChar
        (match rest with
         | '.' :: more => endsInExponent (more.dropWhile isGroupChar)
         | _ => false) ||
        (afterSixties rest).any endsInFraction)
   | [] => false) ||
  (match chars with
   | '.' :: d :: rest => d.isDigit && endsInExponent (rest.dropWhile isGroupChar)
   | _ => false) ||
  isName (spellings "inf") body || isName ["nan", "NaN", "NAN"] chars

/-- Characters of the kind up to the end, at least one. -/
def allUpToEnd (test : Char → Bool) (chars : List Char) : Bool :=
  match chars with
  | [] => false
  | c :: _ => test c && atEnd (chars.dropWhile test)

/-- A hexadecimal digit or an underscore. -/
def isHexGroupChar (c : Char) : Bool := (Char.isDigit c) || ('a' ≤ c && c ≤ 'f') ||
  ('A' ≤ c && c ≤ 'F') || c = '_'

/-- The form of an integer. -/
def isIntForm (chars : List Char) : Bool :=
  match afterSign chars with
  | ['0'] => true
  | ['0', '\n'] => true
  | '0' :: rest =>
    allUpToEnd (fun c => ('0' ≤ c && c ≤ '7') || c = '_') rest ||
      (match rest with
       | 'b' :: more => allUpToEnd (fun c => c = '0' || c = '1' || c = '_') more
       | 'x' :: more => allUpToEnd isHexGroupChar more
       | _ => false)
  | d :: rest =>
    d.isDigit &&
      (let behind := rest.dropWhile isGroupChar
       atEnd behind || (afterSixties behind).any atEnd)
  | [] => false

/-- Exactly so many digits, and the characters behind them. -/
def afterDigits? : Nat → List Char → Option (List Char)
  | 0, chars => some chars
  | n + 1, c :: rest => if c.isDigit then afterDigits? n rest else none
  | _ + 1, [] => none

/-- A character, and the characters behind it. -/
def afterChar? (c : Char) : List Char → Option (List Char)
  | x :: rest => if x = c then some rest else none
  | [] => none

/-- One or two digits, and the characters behind them: the longer reading first. -/
def afterOneOrTwo (chars : List Char) : List (List Char) :=
  (afterDigits? 2 chars).toList ++ (afterDigits? 1 chars).toList

/-- The offset of a time, if there is one, up to the end. -/
def endsInOffset (chars : List Char) : Bool :=
  atEnd chars ||
    match chars.dropWhile fun c => c = ' ' || c = '\t' with
    | 'Z' :: rest => atEnd rest
    | sign :: rest =>
      (sign = '+' || sign = '-') &&
        (afterOneOrTwo rest).any fun rest =>
          atEnd rest || ((afterChar? ':' rest).bind (afterDigits? 2)).any atEnd
    | [] => false

/-- The time of day of a date, up to the end. -/
def endsInClock (chars : List Char) : Bool :=
  let starts :=
    match chars with
    | c :: rest =>
      if c = 'T' || c = 't' then [rest]
      else if c = ' ' || c = '\t' then [rest.dropWhile fun c => c = ' ' || c = '\t']
      else []
    | [] => []
  (starts.flatMap afterOneOrTwo).any fun rest =>
    (((afterChar? ':' rest).bind (afterDigits? 2)).bind (afterChar? ':')).any fun rest =>
      (afterDigits? 2 rest).any fun rest =>
        endsInOffset (match rest with
          | '.' :: more => more.dropWhile Char.isDigit
          | _ => rest)

/-- The form of a date with two digits for month and day, without a time of day. -/
def isDateForm (chars : List Char) : Bool :=
  ((((afterDigits? 4 chars).bind (afterChar? '-')).bind (afterDigits? 2)).bind
    (afterChar? '-')).any fun rest => (afterDigits? 2 rest).any atEnd

/-- The form of a date with a time of day. -/
def isTimeForm (chars : List Char) : Bool :=
  ((afterDigits? 4 chars).bind (afterChar? '-')).any fun rest =>
    (afterOneOrTwo rest).any fun rest =>
      (afterChar? '-' rest).any fun rest => (afterOneOrTwo rest).any endsInClock

/-- The type of a plain scalar without a tag. -/
def implicitTag (text : String) : Tag :=
  let chars := text.toList
  if isBoolForm chars then .bool
  else if isFloatForm chars then .float
  else if isIntForm chars then .int
  else if isWord ["<<"] chars then .merge
  else if isNullForm chars && chars ≠ ['\n'] then .null
  else if isDateForm chars || isTimeForm chars then .timestamp
  else if isWord ["="] chars then .value
  else if isWord ["!", "&", "*"] chars then .unknown
  else .text

end LogAlert.Yaml
