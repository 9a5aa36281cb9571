/-
# LogAlert.Number.Decimal -- floating-point values as decimal texts

A finite value is written with the fewest digits that read back as the same value, and of those
with the digits nearest to it (`shortest`). Reading rounds the exact decimal number (`ofDecimal`).
A text is positional for exponents from -4 up to 15 and scientific beyond (`Binary64.text`).

`reads_shortest`: the digits chosen for a value read back as that value, whenever some digits do.
-/
import LogAlert.Number.Binary64
import LogAlert.Text.Digit

set_option autoImplicit false

namespace LogAlert

/-- The number `digits * 10 ^ exponent`. -/
structure Decimal where
  digits : Nat
  exponent : Int
deriving DecidableEq, Repr

namespace Decimal

/-- The quotient of natural numbers that the decimal number is. -/
def ratio (x : Decimal) : Nat × Nat :=
  match x.exponent with
  | .ofNat e => (x.digits * Nat.pow 10 e, 1)
  | .negSucc e => (x.digits, Nat.pow 10 (e + 1))

/-- How many decimal digits a number has; zero has one. -/
def width (n : Nat) : Nat := (Nat.toDigits 10 n).length

/-- The floating-point value nearest to a decimal number. Numbers from 10^400 on are infinite and
numbers below 10^-400 are zero, so no power of ten larger than that is computed for them. -/
def toBinary (negative : Bool) (x : Decimal) : Binary64 :=
  let size := (width x.digits : Int) + x.exponent
  if x.digits = 0 ∨ size < -400 then .zero negative
  else if 400 < size then .infinite negative
  else
    let (num, den) := x.ratio
    .ofRatio negative num den

/-- The least exponent `k` with `num / den < 10 ^ k`, found near its estimate from the binary
lengths. -/
def position (num den : Nat) : Int :=
  let estimate := (((Nat.log2 num : Int) - (Nat.log2 den : Int)) * 30103).fdiv 100000 - 1
  let below (k : Int) : Bool :=
    let (n, d) := ratio ⟨1, k⟩
    num * d < n * den
  ([estimate, estimate + 1, estimate + 2].find? below).getD (estimate + 3)

/-- `num / den` in units of `10 ^ exponent`, rounded down, with the remainder and its unit. -/
def cut (num den : Nat) (exponent : Int) : Nat × Nat × Nat :=
  let (n, d) := ratio ⟨1, exponent⟩
  let unit := den * n
  (num * d / unit, num * d % unit, unit)

/-- The neighbours of `num / den` with the given last decimal place, the nearer one first; of two
equally near ones the even one comes first. -/
def neighbours (num den : Nat) (exponent : Int) : List Decimal :=
  let (q, r, unit) := cut num den exponent
  let lower : Decimal := ⟨q, exponent⟩
  let upper : Decimal := ⟨q + 1, exponent⟩
  if 2 * r < unit ∨ (2 * r = unit ∧ q % 2 = 0) then [lower, upper] else [upper, lower]

/-- The exact decimal expansion of `mantissa * 2 ^ exponent`. -/
def exact (mantissa : Nat) : Int → Decimal
  | .ofNat e => ⟨mantissa * Nat.pow 2 e, 0⟩
  | .negSucc e => ⟨mantissa * Nat.pow 5 (e + 1), -((e : Int) + 1)⟩

/-- The candidates for a finite value: its neighbours with one digit, with two, and so on up to
seventeen, and last the exact expansion. -/
def candidates (mantissa : Nat) (exponent : Int) : List Decimal :=
  let (num, den) := Binary64.magnitude mantissa exponent
  let place := position num den
  ((List.range 17).flatMap fun (n : Nat) => neighbours num den (place - ((n : Int) + 1))) ++
    [exact mantissa exponent]

/-- The shortest decimal number that reads back as the finite value, and the nearest of those. -/
def shortest (mantissa : Nat) (exponent : Int) : Decimal :=
  if mantissa = 0 then ⟨0, 0⟩
  else
    ((candidates mantissa exponent).find? fun x =>
      x.toBinary false = .finite false mantissa exponent).getD (exact mantissa exponent)

/-- If any candidate reads back as the value, the chosen one does. -/
theorem reads_shortest {m : Nat} {e : Int} (hm : m ≠ 0)
    (h : ∃ x ∈ candidates m e, x.toBinary false = .finite false m e) :
    (shortest m e).toBinary false = .finite false m e := by
  obtain ⟨x, hx, hr⟩ := h
  unfold shortest
  rw [if_neg hm]
  cases hf : (candidates m e).find? fun x => x.toBinary false = .finite false m e with
  | none => simpa [hr] using (List.find?_eq_none.1 hf) x hx
  | some y => simpa using List.find?_some hf

/-- The decimal number without zeros at the end of its digits. -/
def trimZeros (chars : List Char) : List Char :=
  match chars.reverse.dropWhile (· = '0') with
  | [] => ['0']
  | kept => kept.reverse

/-- The digits of a positive decimal number without zeros at their end, and the place of the point
counted from the first digit. -/
def digitsAndPoint (x : Decimal) : List Char × Int :=
  let chars := Nat.toDigits 10 x.digits
  (trimZeros chars, (chars.length : Int) + x.exponent)

end Decimal

namespace Binary64

/-- The spelling of the values that are not finite. -/
structure Names where
  nan : String
  infinity : String
  minusInfinity : String

/-- An exponent has a sign and at least two digits. -/
def exponentText (e : Int) : List Char :=
  let digits := Nat.toDigits 10 e.natAbs
  'e' :: (if e < 0 then '-' else '+') :: (if digits.length < 2 then '0' :: digits else digits)

/-- The text of a finite value: positional with at least one digit on each side of the point if the
point stands from three places before the first digit to sixteen places behind it, and with an
exponent otherwise. -/
def finiteText (negative : Bool) (mantissa : Nat) (exponent : Int) : String :=
  let sign := if negative then ['-'] else []
  if mantissa = 0 then String.ofList (sign ++ "0.0".toList)
  else
    let (digits, point) := (Decimal.shortest mantissa exponent).digitsAndPoint
    let body :=
      if point ≤ -4 ∨ 16 < point then
        match digits with
        | [] => []
        | [d] => d :: exponentText (point - 1)
        | d :: rest => d :: '.' :: rest ++ exponentText (point - 1)
      else if point ≤ 0 then
        '0' :: '.' :: List.replicate point.natAbs '0' ++ digits
      else
        let whole := point.toNat
        if digits.length ≤ whole then
          digits ++ List.replicate (whole - digits.length) '0' ++ ['.', '0']
        else digits.take whole ++ '.' :: digits.drop whole
    String.ofList (sign ++ body)

/-- The text of a value, with the given names for those that are not finite. -/
def text (names : Names) : Binary64 → String
  | .finite negative m e => finiteText negative m e
  | .infinite false => names.infinity
  | .infinite true => names.minusInfinity
  | .nan => names.nan

/-- The names used where a value is shown as text. -/
def plainNames : Names := ⟨"nan", "inf", "-inf"⟩

/-- The value as it is shown in a text. -/
def shown (x : Binary64) : String := x.text plainNames

end Binary64

namespace Decimal

/-- Digits in which single underscores may stand between digits, and the characters behind them. -/
def takeGrouped : List Char → List Nat × List Char
  | [] => ([], [])
  | '_' :: c :: rest =>
    match Text.digitValue? c with
    | some d => let (ds, left) := takeGrouped rest; (d :: ds, left)
    | none => ([], '_' :: c :: rest)
  | c :: rest =>
    match Text.digitValue? c with
    | some d => let (ds, left) := takeGrouped rest; (d :: ds, left)
    | none => ([], c :: rest)

/-- Digits that do not begin with an underscore, and the characters behind them. -/
def takeDigits : List Char → List Nat × List Char
  | '_' :: rest => ([], '_' :: rest)
  | chars => takeGrouped chars

/-- The exponent behind the digits of a number: absent, or a letter, a sign and digits to the end. -/
def readExponent? : List Char → Option Int
  | [] => some 0
  | c :: rest =>
    if c = 'e' ∨ c = 'E' then
      let (negative, digits) := Text.splitSign rest
      match takeDigits digits with
      | (d :: ds, []) =>
        let n : Int := Text.ofDigits 10 (d :: ds)
        some (if negative then -n else n)
      | _ => none
    else none

/-- An unsigned decimal number with an optional point and an optional exponent. -/
def read? (chars : List Char) : Option Decimal :=
  let (whole, rest) := takeDigits chars
  let (fraction, rest) :=
    match rest with
    | '.' :: after => takeDigits after
    | _ => ([], rest)
  match whole ++ fraction with
  | [] => none
  | digits => do
    let e ← readExponent? rest
    return ⟨Text.ofDigits 10 digits, e - fraction.length⟩

end Decimal

namespace Binary64

/-- Read a floating-point value: an optional sign, then a decimal number or a name of infinity or of
the undefined value, with blanks around it. -/
def read? (text : String) : Option Binary64 :=
  let (negative, body) := Text.splitSign (Text.trimChars text.toList)
  let name := String.ofList (body.map Char.toLower)
  if name = "inf" ∨ name = "infinity" then some (.infinite negative)
  else if name = "nan" then some .nan
  else (Decimal.read? body).map (·.toBinary negative)

end Binary64

end LogAlert
