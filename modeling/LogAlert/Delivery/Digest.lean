/-
# LogAlert.Delivery.Digest -- short names for job keys

The ledger names a job key by the first sixteen hexadecimal digits of its SHA-256 hash. `sha256` is
the hash of a list of octets: the padded message is cut into blocks of sixteen words, and each block
is mixed into eight words of state by sixty-four rounds.
-/
import LogAlert.Text.Quoted

set_option autoImplicit false

namespace LogAlert.Digest

/-- The word that is added in each round: fractions of the cube roots of the first primes. -/
def roundConstants : List UInt32 :=
  [0x428a2f98, 0x71374491, 0xb5c0fbcf, 0xe9b5dba5, 0x3956c25b, 0x59f111f1, 0x923f82a4, 0xab1c5ed5,
    0xd807aa98, 0x12835b01, 0x243185be, 0x550c7dc3, 0x72be5d74, 0x80deb1fe, 0x9bdc06a7, 0xc19bf174,
    0xe49b69c1, 0xefbe4786, 0x0fc19dc6, 0x240ca1cc, 0x2de92c6f, 0x4a7484aa, 0x5cb0a9dc, 0x76f988da,
    0x983e5152, 0xa831c66d, 0xb00327c8, 0xbf597fc7, 0xc6e00bf3, 0xd5a79147, 0x06ca6351, 0x14292967,
    0x27b70a85, 0x2e1b2138, 0x4d2c6dfc, 0x53380d13, 0x650a7354, 0x766a0abb, 0x81c2c92e, 0x92722c85,
    0xa2bfe8a1, 0xa81a664b, 0xc24b8b70, 0xc76c51a3, 0xd192e819, 0xd6990624, 0xf40e3585, 0x106aa070,
    0x19a4c116, 0x1e376c08, 0x2748774c, 0x34b0bcb5, 0x391c0cb3, 0x4ed8aa4a, 0x5b9cca4f, 0x682e6ff3,
    0x748f82ee, 0x78a5636f, 0x84c87814, 0x8cc70208, 0x90befffa, 0xa4506ceb, 0xbef9a3f7, 0xc67178f2]

/-- The eight words of state. -/
structure State where
  a : UInt32
  b : UInt32
  c : UInt32
  d : UInt32
  e : UInt32
  f : UInt32
  g : UInt32
  h : UInt32
deriving DecidableEq, Repr

/-- The state before the first block: fractions of the square roots of the first primes. -/
def initial : State :=
  ⟨0x6a09e667, 0xbb67ae85, 0x3c6ef372, 0xa54ff53a, 0x510e527f, 0x9b05688c, 0x1f83d9ab, 0x5be0cd19⟩

/-- Turn a word to the right. -/
def rotate (word : UInt32) (places : UInt32) : UInt32 :=
  (word >>> places) ||| (word <<< (32 - places))

/-- One round with the word of the message and the word of the round. -/
def mix (s : State) (word constant : UInt32) : State :=
  let choice := (s.e &&& s.f) ^^^ ((~~~s.e) &&& s.g)
  let majority := (s.a &&& s.b) ^^^ (s.a &&& s.c) ^^^ (s.b &&& s.c)
  let first := s.h + (rotate s.e 6 ^^^ rotate s.e 11 ^^^ rotate s.e 25) + choice + constant + word
  let second := (rotate s.a 2 ^^^ rotate s.a 13 ^^^ rotate s.a 22) + majority
  ⟨first + second, s.a, s.b, s.c, s.d + first, s.e, s.f, s.g⟩

/-- The next word of the message schedule, from the sixteen words before it. -/
def scheduled (window : List UInt32) : UInt32 :=
  let word (i : Nat) : UInt32 := window.getD i 0
  let small (x : UInt32) : UInt32 := rotate x 7 ^^^ rotate x 18 ^^^ (x >>> 3)
  let large (x : UInt32) : UInt32 := rotate x 17 ^^^ rotate x 19 ^^^ (x >>> 10)
  large (word 14) + word 9 + small (word 1) + word 0

/-- The rounds of one block. The window holds the words of this round and the next fifteen. -/
def rounds (block : List UInt32) (s : State) : State :=
  (roundConstants.foldl (fun (window, s) constant =>
    (window.drop 1 ++ [scheduled window], mix s (window.headD 0) constant)) (block, s)).2

/-- Mix a block into the state. -/
def absorb (s : State) (block : List UInt32) : State :=
  let t := rounds block s
  ⟨s.a + t.a, s.b + t.b, s.c + t.c, s.d + t.d, s.e + t.e, s.f + t.f, s.g + t.g, s.h + t.h⟩

/-- The octets of a number, the highest first. -/
def octets (width n : Nat) : List UInt8 :=
  ((List.range width).map fun i => (n / Nat.pow 256 i % 256).toUInt8).reverse

/-- The message with a mark at its end, filled up to whole blocks, with its length in bits. -/
def padded (message : List UInt8) : List UInt8 :=
  let fill := (119 - message.length % 64) % 64
  message ++ [0x80] ++ List.replicate fill 0 ++ octets 8 (8 * message.length)

/-- Pieces of the given size. -/
def pieces {α : Type} (size : Nat) : Nat → List α → List (List α)
  | 0, _ => []
  | count + 1, items => items.take size :: pieces size count (items.drop size)

/-- The word with these octets. -/
def wordOf (four : List UInt8) : UInt32 :=
  four.foldl (fun word octet => (word <<< 8) ||| octet.toUInt32) 0

/-- The blocks of a message. -/
def blocks (message : List UInt8) : List (List UInt32) :=
  let all := padded message
  (pieces 64 (all.length / 64) all).map fun block => (pieces 4 16 block).map wordOf

/-- The hash of a message, as eight words. -/
def sha256 (message : List UInt8) : State := (blocks message).foldl absorb initial

/-- The first sixteen hexadecimal digits of the hash of a text. -/
def ofKey (key : String) : String :=
  let state := sha256 key.toUTF8.toList
  String.ofList (Text.hexDigits 8 state.a.toNat ++ Text.hexDigits 8 state.b.toNat)

end LogAlert.Digest
