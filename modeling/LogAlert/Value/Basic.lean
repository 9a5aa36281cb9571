/-
# LogAlert.Value.Basic -- data of any shape

Rules, logs, settings and job payloads arrive as data of any shape. A `Value` is one such datum: a
scalar, a list, or a mapping whose entries keep the order in which they were written. Mappings are
lists of entries; a key occurs once, and writing to a key that is present keeps its place.

Keys and scalars are compared by `Value.same`, which compares numbers by their size: the numbers 1
and 1.0 and the truth value true are one key. There is one undefined number, which is found again
where it is a key.
-/
import LogAlert.Number.Decimal
import LogAlert.Time.DateTime

set_option autoImplicit false

namespace LogAlert

/-- A datum of any shape. -/
inductive Value where
  | null
  | bool (truth : Bool)
  | int (number : Int)
  | float (number : Binary64)
  | text (chars : String)
  | bytes (octets : List UInt8)
  | date (day : Time.Date)
  | time (moment : Time.DateTime)
  | list (items : List Value)
  /-- One entry of an ordered sequence of entries. -/
  | pair (first second : Value)
  /-- A collection without repetitions. -/
  | set (items : List Value)
  | map (entries : List (Value × Value))
deriving BEq, Inhabited, Repr

namespace Value

/-- An entry of a mapping. -/
abbrev Entry := Value × Value

/-- The number that a truth value or a number is. -/
inductive Numeric where
  | int (n : Int)
  | float (x : Binary64)

/-- Truth values count as one and zero. -/
def numeric? : Value → Option Numeric
  | .bool b => some (.int (if b then 1 else 0))
  | .int n => some (.int n)
  | .float x => some (.float x)
  | _ => none

/-- Numbers of both kinds are compared by their exact size. The undefined number has none and is
compared as the one thing it is. -/
def Numeric.same : Numeric → Numeric → Bool
  | .int a, .int b => a == b
  | .int a, .float x => x.eqInt a
  | .float x, .int a => x.eqInt a
  | .float .nan, .float .nan => true
  | .float x, .float y => x.numEq y

/-- Times with a known offset are compared as instants, times without one as they are written; the
two kinds are never equal. -/
def sameTime (a b : Time.DateTime) : Bool :=
  a.offset.isSome == b.offset.isSome && a.instant == b.instant

/-- Scalars of equal kind and content; numbers of equal size. -/
def sameScalar (a b : Value) : Bool :=
  match a, b with
  | .null, .null => true
  | .text s, .text t => s == t
  | .bytes x, .bytes y => x == y
  | .date x, .date y => x == y
  | .time x, .time y => sameTime x y
  | a, b =>
    match a.numeric?, b.numeric? with
    | some x, some y => x.same y
    | _, _ => false

mutual

/-- Equality of data: lists entry by entry, mappings and sets without regard to order. -/
def same : Value → Value → Bool
  | .list xs, other => match other with
    | .list ys => sameList xs ys
    | _ => false
  | .pair a b, other => match other with
    | .pair c d => same a c && same b d
    | _ => false
  | .set xs, other => match other with
    | .set ys => xs.length == ys.length && sameMembers xs ys
    | _ => false
  | .map xs, other => match other with
    | .map ys => xs.length == ys.length && sameEntries xs ys
    | _ => false
  | .null, other => sameScalar .null other
  | .bool b, other => sameScalar (.bool b) other
  | .int n, other => sameScalar (.int n) other
  | .float x, other => sameScalar (.float x) other
  | .text s, other => sameScalar (.text s) other
  | .bytes x, other => sameScalar (.bytes x) other
  | .date x, other => sameScalar (.date x) other
  | .time x, other => sameScalar (.time x) other
termination_by structural value => value

/-- Equal data at equal places. -/
def sameList : List Value → List Value → Bool
  | [], ys => ys.isEmpty
  | x :: xs, ys => match ys with
    | [] => false
    | y :: ys => same x y && sameList xs ys
termination_by structural items => items

/-- Each datum of the first list is in the second. -/
def sameMembers : List Value → List Value → Bool
  | [], _ => true
  | x :: xs, ys => ys.any (fun y => same x y) && sameMembers xs ys
termination_by structural items => items

/-- Each entry of the first list has an equal one in the second. -/
def sameEntries : List Entry → List Entry → Bool
  | [], _ => true
  | entry :: rest, ys => sameEntry entry ys && sameEntries rest ys
termination_by structural entries => entries

/-- An equal entry is in the list. -/
def sameEntry : Entry → List Entry → Bool
  | (k, v), ys => ys.any fun y => same k y.1 && same v y.2
termination_by structural entry => entry

end

/-- The value at a key. -/
def lookupIn (entries : List Entry) (key : Value) : Option Value :=
  (entries.find? fun entry => entry.1.same key).map (·.2)

/-- Write a value at a key: in place if the key is present, else behind all entries. -/
def insertIn (entries : List Entry) (key value : Value) : List Entry :=
  match entries with
  | [] => [(key, value)]
  | (k, v) :: rest =>
    if k.same key then (k, value) :: rest else (k, v) :: insertIn rest key value

/-- The value of a mapping at a text key; null where there is none. -/
def at? (entries : List Entry) (key : String) : Option Value := lookupIn entries (.text key)

@[inherit_doc at?]
def get (entries : List Entry) (key : String) : Value := (at? entries key).getD .null

/-- The value counts as true: it is neither null, false, zero nor empty. -/
def truthy : Value → Bool
  | .null => false
  | .bool b => b
  | .int n => n != 0
  | .float x => !(x.eqInt 0)
  | .text s => s != ""
  | .bytes x => !x.isEmpty
  | .date _ => true
  | .time _ => true
  | .list xs => !xs.isEmpty
  | .pair _ _ => true
  | .set xs => !xs.isEmpty
  | .map xs => !xs.isEmpty

/-- The value is null. -/
def isNull : Value → Bool
  | .null => true
  | _ => false

/-- The first of two values if it counts as true, else the second. -/
def orElse (a b : Value) : Value := if a.truthy then a else b

/-- The text of a value that is a text. -/
def text? : Value → Option String
  | .text s => some s
  | _ => none

/-- The entries of a mapping. -/
def entries? : Value → Option (List Entry)
  | .map entries => some entries
  | _ => none

/-- The items of a list. -/
def items? : Value → Option (List Value)
  | .list items => some items
  | _ => none

/-- An absent text is null. -/
def ofText? : Option String → Value
  | some s => .text s
  | none => .null

/-- A list of texts. -/
def texts (items : List String) : Value := .list (items.map .text)

/-- The first part of a value that cannot be a key, if there is one: lists, sets and mappings. -/
def unkeyable? : Value → Option Value
  | .list items => some (.list items)
  | .set items => some (.set items)
  | .map entries => some (.map entries)
  | .pair a b => (unkeyable? a).or (unkeyable? b)
  | _ => none

/-- The kind of a value, as messages name it. -/
def kindName : Value → String
  | .null => "NoneType"
  | .bool _ => "bool"
  | .int _ => "int"
  | .float _ => "float"
  | .text _ => "str"
  | .bytes _ => "bytes"
  | .date _ => "date"
  | .time _ => "datetime"
  | .list _ => "list"
  | .pair _ _ => "tuple"
  | .set _ => "set"
  | .map _ => "dict"

/-- The kind of a value with the family it belongs to, as messages on wrong kinds name it. -/
def fullKindName : Value → String
  | .date _ => "datetime.date"
  | .time _ => "datetime.datetime"
  | v => v.kindName

end Value

end LogAlert
