/-
# LogAlert.Number.Binary64 -- binary floating point, exactly

Floating-point values of logs and rules are kept as a sign, a mantissa and a power of two, so that
their equality is decidable and each operation is one exact operation on rationals followed by one
rounding (`ofRatio`): to the nearest of the representable numbers, a half to the even mantissa, and
to infinity from 2^1024 on.
-/

set_option autoImplicit false

namespace LogAlert

/-- A binary floating-point value of 64 bits. A finite value is `mantissa * 2 ^ exponent` with the
sign; all values made here have a mantissa below 2^53 and an exponent from -1074 to 971, and the
mantissa is at least 2^52 unless the exponent is the least one. -/
inductive Binary64 where
  | finite (negative : Bool) (mantissa : Nat) (exponent : Int)
  | infinite (negative : Bool)
  | nan
deriving DecidableEq, Repr, Inhabited

namespace Binary64

/-- Positive or negative zero. -/
def zero (negative : Bool) : Binary64 := .finite negative 0 (-1074)

/-- The integer nearest to `num / den`; a half goes to the even neighbour. -/
def roundHalfEven (num den : Nat) : Nat :=
  let q := num / den
  let r := num % den
  if 2 * r < den then q
  else if den < 2 * r then q + 1
  else if q % 2 = 0 then q
  else q + 1

/-- `num / den` divided by `2 ^ exponent`, as a quotient of natural numbers. -/
def scaled (num den : Nat) (exponent : Int) : Nat × Nat :=
  match exponent with
  | .ofNat e => (num, den * Nat.pow 2 e)
  | .negSucc e => (num * Nat.pow 2 (e + 1), den)

/-- The exponent whose mantissas have 53 bits at the size of `num / den`, or the least one. -/
def exponentFor (num den : Nat) : Int :=
  let estimate := (Nat.log2 num : Int) - (Nat.log2 den : Int) - 53
  let (n, d) := scaled num den estimate
  max (if n / d < Nat.pow 2 53 then estimate else estimate + 1) (-1074)

/-- The finite value with this mantissa and exponent, if it is small enough; a mantissa that was
rounded up to 2^53 is halved first. -/
def pack (negative : Bool) (mantissa : Nat) (exponent : Int) : Binary64 :=
  let (m, e) := if mantissa = Nat.pow 2 53 then (Nat.pow 2 52, exponent + 1) else (mantissa, exponent)
  if 971 < e then .infinite negative else .finite negative m e

/-- The value nearest to the rational number `num / den`. -/
def ofRatio (negative : Bool) (num den : Nat) : Binary64 :=
  if num = 0 then zero negative
  else
    let e := exponentFor num den
    let (n, d) := scaled num den e
    pack negative (roundHalfEven n d) e

/-- The size of a finite value as a quotient of natural numbers. -/
def magnitude (mantissa : Nat) : Int → Nat × Nat
  | .ofNat e => (mantissa * Nat.pow 2 e, 1)
  | .negSucc e => (mantissa, Nat.pow 2 (e + 1))

/-- A finite value as a signed quotient; infinities and the undefined value have none. -/
def ratio? : Binary64 → Option (Int × Nat)
  | .finite negative m e =>
    let (n, d) := magnitude m e
    some (if negative then -(n : Int) else n, d)
  | _ => none

/-- The value nearest to a signed quotient. -/
def ofSignedRatio (num : Int) (den : Nat) : Binary64 := ofRatio (num < 0) num.natAbs den

/-- The value nearest to an integer, unless it is too large for a finite value. -/
def ofInt? (n : Int) : Option Binary64 :=
  match ofSignedRatio n 1 with
  | .infinite _ => none
  | x => some x

/-- The integer part of a finite value, towards zero. -/
def truncate? (x : Binary64) : Option Int :=
  x.ratio?.map fun (n, d) => n.tdiv d

/-- The value is finite and has no fraction. -/
def isIntegral (x : Binary64) : Bool :=
  match x.ratio? with
  | some (n, d) => n % d == 0
  | none => false

/-- The value with the other sign. -/
def neg : Binary64 → Binary64
  | .finite negative m e => .finite (!negative) m e
  | .infinite negative => .infinite (!negative)
  | .nan => .nan

/-- The rounded product. -/
def mul (x y : Binary64) : Binary64 :=
  match x, y with
  | .nan, _ => .nan
  | _, .nan => .nan
  | .infinite s, .infinite t => .infinite (s != t)
  | .infinite s, .finite t m _ => if m = 0 then .nan else .infinite (s != t)
  | .finite s m _, .infinite t => if m = 0 then .nan else .infinite (s != t)
  | .finite s m e, .finite t n f =>
    let (a, b) := magnitude m e
    let (c, d) := magnitude n f
    ofRatio (s != t) (a * c) (b * d)

/-- The rounded sum. -/
def add (x y : Binary64) : Binary64 :=
  match x, y with
  | .nan, _ => .nan
  | _, .nan => .nan
  | .infinite s, .infinite t => if s = t then .infinite s else .nan
  | .infinite s, .finite _ _ _ => .infinite s
  | .finite _ _ _, .infinite t => .infinite t
  | .finite s m e, .finite t n f =>
    let (a, b) := magnitude m e
    let (c, d) := magnitude n f
    let signed (negative : Bool) (k : Nat) : Int := if negative then -(k : Int) else k
    let total := signed s (a * d) + signed t (c * b)
    if total = 0 then zero (s && t) else ofSignedRatio total (b * d)

/-- Numeric equality: the two zeros are equal, and the undefined value equals nothing. -/
def numEq (x y : Binary64) : Bool :=
  match x, y with
  | .finite _ _ _, .finite _ _ _ =>
    match x.ratio?, y.ratio? with
    | some (a, b), some (c, d) => a * d == c * b
    | _, _ => false
  | .infinite s, .infinite t => s == t
  | _, _ => false

/-- The value is exactly this integer. -/
def eqInt (x : Binary64) (n : Int) : Bool :=
  match x.ratio? with
  | some (a, b) => a == n * b
  | none => false

end Binary64

end LogAlert
