/-
# LogAlert.Proofs.Json.Strings -- JSON strings are read back as they were printed

Each printed character is read by one step of `stringBody?` (`stringBody?_charText`), whatever its
form: as it is, behind a backslash, by its UTF-16 unit, or by a pair of surrogates.  No printed unit
is a surrogate that stands alone, so the replacement character is never read.
-/
import LogAlert.Json.Read
import Mathlib.Tactic.Common

set_option autoImplicit false

namespace LogAlert.Json

theorem hexValue?_hexDigit : ∀ n < 16, hexValue? (Text.hexDigit n) = some n := by decide

theorem hexDigits_four (n : Nat) :
    Text.hexDigits 4 n = [Text.hexDigit (n / 4096 % 16), Text.hexDigit (n / 256 % 16),
      Text.hexDigit (n / 16 % 16), Text.hexDigit (n % 16)] := by
  simp only [Text.hexDigits, Nat.div_div_eq_div_mul, List.nil_append, List.cons_append]

theorem unit?_hexDigits {n : Nat} (small : n < 0x10000) (rest : List Char) :
    unit? (Text.hexDigits 4 n ++ rest) = some (n, rest) := by
  have digit (m : Nat) : hexValue? (Text.hexDigit (m % 16)) = some (m % 16) :=
    hexValue?_hexDigit _ (Nat.mod_lt _ (by decide))
  have whole : ((n / 4096 % 16 * 16 + n / 256 % 16) * 16 + n / 16 % 16) * 16 + n % 16 = n := by
    omega
  simp only [hexDigits_four, List.cons_append, List.nil_append, unit?, digit, Option.bind_eq_bind,
    Option.bind_some, whole]
  rfl

theorem unicodeEscape?_unit {n : Nat} (small : n < 0x10000) (ordinary : n < 0xD800 ∨ 0xDFFF < n)
    (rest : List Char) : unicodeEscape? (Text.hexDigits 4 n ++ rest) = some (Char.ofNat n, rest) := by
  simp only [unicodeEscape?, unit?_hexDigits small, Option.bind_eq_bind, Option.bind_some,
    if_pos ordinary]
  rfl

theorem unicodeEscape?_surrogates {high low : Nat} (isHigh : 0xD800 ≤ high ∧ high < 0xDC00)
    (isLow : 0xDC00 ≤ low ∧ low ≤ 0xDFFF) (rest : List Char) :
    unicodeEscape? (Text.hexDigits 4 high ++ (unitEscape low ++ rest)) =
      some (Char.ofNat (0x10000 + (high - 0xD800) * 0x400 + (low - 0xDC00)), rest) := by
  have surrogate : ¬ (high < 0xD800 ∨ 0xDFFF < high) := by omega
  have pair : high < 0xDC00 ∧ 0xDC00 ≤ low ∧ low ≤ 0xDFFF := ⟨isHigh.2, isLow⟩
  rw [unicodeEscape?, unit?_hexDigits (by omega)]
  simp only [Option.bind_eq_bind, Option.bind_some, if_neg surrogate, unitEscape, List.cons_append,
    unit?_hexDigits (show low < 0x10000 by omega), if_pos pair]
  rfl

/-- The next character of a string, and what the rest of the string is read as. -/
def withNext (c : Char) (read : Option (List Char × List Char)) : Option (List Char × List Char) :=
  read.map fun (chars, behind) => (c :: chars, behind)

theorem withNext_some (c : Char) (chars behind : List Char) :
    withNext c (some (chars, behind)) = some (c :: chars, behind) := rfl

theorem withNext_eq_bind (c : Char) (read : Option (List Char × List Char)) :
    (read >>= fun (chars, behind) => pure (c :: chars, behind)) = withNext c read := by
  cases read <;> rfl

theorem stringBody?_escape {e c : Char} (known : escape? e = some c) (fuel : Nat)
    (rest : List Char) :
    stringBody? (fuel + 1) ('\\' :: e :: rest) = withNext c (stringBody? fuel rest) := by
  have notUnit : e ≠ 'u' := by
    rintro rfl
    cases known
  rw [stringBody?, if_neg (by decide), if_pos rfl, ← withNext_eq_bind]
  · simp only [known, Option.bind_eq_bind, Option.bind_some]
  · exact notUnit

theorem stringBody?_unicode {c : Char} {input rest : List Char}
    (known : unicodeEscape? input = some (c, rest)) (fuel : Nat) :
    stringBody? (fuel + 1) ('\\' :: 'u' :: input) = withNext c (stringBody? fuel rest) := by
  rw [stringBody?, if_neg (by decide), if_pos rfl, ← withNext_eq_bind]
  simp only [known, Option.bind_eq_bind, Option.bind_some]

theorem stringBody?_plain {c : Char} (quote : c ≠ '"') (slash : c ≠ '\\') (visible : 32 ≤ c.toNat)
    (fuel : Nat) (rest : List Char) :
    stringBody? (fuel + 1) (c :: rest) = withNext c (stringBody? fuel rest) := by
  rw [stringBody?.eq_def]
  simp only [if_neg quote, if_neg slash, if_neg (Nat.not_lt.2 visible)]
  exact withNext_eq_bind ..

/-- A character beyond ASCII is read back from its unit, or from its two surrogates. -/
theorem stringBody?_units (c : Char) (fuel : Nat) (rest : List Char) :
    stringBody? (fuel + 1)
      ((if c.toNat < 0x10000 then unitEscape c.toNat
        else unitEscape (0xD800 + (c.toNat - 0x10000) / 0x400) ++
          unitEscape (0xDC00 + (c.toNat - 0x10000) % 0x400)) ++ rest) =
      withNext c (stringBody? fuel rest) := by
  have valid : c.toNat < 0xD800 ∨ 0xDFFF < c.toNat ∧ c.toNat < 0x110000 := c.valid
  have same : Char.ofNat c.toNat = c := Char.ofNat_toNat c
  generalize c.toNat = n at valid same ⊢
  by_cases small : n < 0x10000
  · have known := unicodeEscape?_unit small (valid.imp_right And.left) rest
    rw [same] at known
    rw [if_pos small]
    exact stringBody?_unicode known fuel
  · have known := unicodeEscape?_surrogates
      (show 0xD800 ≤ 0xD800 + (n - 0x10000) / 0x400 ∧ 0xD800 + (n - 0x10000) / 0x400 < 0xDC00 by
        omega)
      (show 0xDC00 ≤ 0xDC00 + (n - 0x10000) % 0x400 ∧
        0xDC00 + (n - 0x10000) % 0x400 ≤ 0xDFFF by omega) rest
    have whole : 0x10000 + (0xD800 + (n - 0x10000) / 0x400 - 0xD800) * 0x400 +
        (0xDC00 + (n - 0x10000) % 0x400 - 0xDC00) = n := by omega
    rw [whole, same] at known
    rw [if_neg small, List.append_assoc]
    exact stringBody?_unicode known fuel

/-- One step of the reader takes one printed character. -/
theorem stringBody?_charText (c : Char) (fuel : Nat) (rest : List Char) :
    stringBody? (fuel + 1) (charText c ++ rest) = withNext c (stringBody? fuel rest) := by
  have escaped {e : Char} (known : escape? e = some c) :
      stringBody? (fuel + 1) (['\\', e] ++ rest) = withNext c (stringBody? fuel rest) :=
    stringBody?_escape known fuel rest
  rw [charText]
  split
  · exact escaped (by simp [*, escape?])
  split
  · exact escaped (by simp [*, escape?])
  split
  · exact escaped (by simp [*, escape?])
  split
  · exact escaped (by simp [*, escape?])
  split
  · exact escaped (by simp [*, escape?])
  split
  · exact escaped (by simp [*, escape?])
  split
  · exact escaped (by simp [*, escape?])
  rename_i quote slash _ _ _ _ _
  by_cases visible : 32 ≤ c.toNat ∧ c.toNat ≤ 126
  · simp only [if_pos visible, List.singleton_append]
    exact stringBody?_plain quote slash visible.1 fuel rest
  · simp only [if_neg visible]
    exact stringBody?_units c fuel rest

theorem length_charText (c : Char) : 0 < (charText c).length := by
  simp only [charText, unitEscape]
  repeat' split
  all_goals simp only [List.cons_append, List.length_cons, Nat.succ_pos]

theorem length_le_flatMap_charText (chars : List Char) :
    chars.length ≤ (chars.flatMap charText).length := by
  induction chars with
  | nil => exact Nat.zero_le _
  | cons c chars ih =>
      have one := length_charText c
      rw [List.flatMap_cons, List.length_append, List.length_cons]
      omega

/-- A printed string is read back, with what stands behind its closing quote. -/
theorem stringBody?_flatMap (chars rest : List Char) {fuel : Nat} (enough : chars.length < fuel) :
    stringBody? fuel (chars.flatMap charText ++ '"' :: rest) = some (chars, rest) := by
  induction chars generalizing fuel with
  | nil =>
      obtain ⟨fuel, rfl⟩ := Nat.exists_eq_add_one_of_ne_zero (Nat.ne_zero_of_lt enough)
      rfl
  | cons c chars ih =>
      obtain ⟨fuel, rfl⟩ := Nat.exists_eq_add_one_of_ne_zero (Nat.ne_zero_of_lt enough)
      rw [List.flatMap_cons, List.append_assoc, stringBody?_charText,
        ih (Nat.lt_of_succ_lt_succ enough), withNext_some]

end LogAlert.Json
