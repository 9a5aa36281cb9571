/-
# LogAlert.Proofs.Number.Rounding -- what rounding yields

`ofRatio` computes with natural numbers; here its steps are read as statements on the rational
number that is rounded.  Its exponent is the only one that suits the size of that number
(`Suits.unique`), so the result depends on the number alone and not on the quotient that stands for
it (`ofRatio_congr`).  All results have the form that is promised for values of floating point
(`Canonical`), and a number that has this form already is not changed (`ofRatio_packed`).  Rounding
adds at most a unit in the last place (`quotient_magnitude_ofRatio_le`).

Decimal numbers are rounded in the same way: zeros at the end of the digits make no difference
(`toBinary_mul_pow`), and the exact expansion of a value reads back as that value
(`toBinary_shortest`).
-/
import LogAlert.Number.Decimal
import Mathlib.Algebra.Order.Field.Power
import Mathlib.Algebra.Order.Field.Rat
import Mathlib.Tactic.FieldSimp
import Mathlib.Tactic.Linarith
import Mathlib.Tactic.NormNum
import Mathlib.Tactic.Positivity
import Mathlib.Tactic.Ring

set_option autoImplicit false

namespace LogAlert.Binary64

/-- A mantissa and an exponent as finite values have them. -/
structure Packed (m : Nat) (e : Int) : Prop where
  small : m < 2 ^ 53
  least : -1074 ≤ e
  most : e ≤ 971
  full : 2 ^ 52 ≤ m ∨ e = -1074

/-- The value has the form in which all values are made. -/
def Canonical : Binary64 → Prop
  | .finite _ m e => Packed m e
  | .infinite _ => True
  | .nan => True

theorem canonical_zero (negative : Bool) : (zero negative).Canonical :=
  ⟨by norm_num, le_refl _, by norm_num, .inr rfl⟩

theorem Canonical.neg {x : Binary64} (canonical : x.Canonical) : x.neg.Canonical := by
  cases x <;> exact canonical

/-! ## Quotients of natural numbers -/

/-- The rational number that a quotient of natural numbers is. -/
def quotient (r : Nat × Nat) : ℚ := r.1 / r.2

theorem quotient_scaled (num den : Nat) (e : Int) :
    quotient (scaled num den e) = quotient (num, den) / 2 ^ e := by
  cases e with
  | ofNat k =>
      simp only [quotient, scaled, Int.ofNat_eq_natCast, zpow_natCast, Nat.pow_eq]
      push_cast
      rw [div_div]
  | negSucc k =>
      simp only [quotient, scaled, zpow_negSucc, Nat.pow_eq]
      push_cast
      rw [div_inv_eq_mul, mul_div_right_comm]

theorem scaled_snd_pos {den : Nat} (positive : 0 < den) (num : Nat) (e : Int) :
    0 < (scaled num den e).2 := by
  cases e with
  | ofNat k => exact Nat.mul_pos positive (Nat.two_pow_pos k)
  | negSucc k => exact positive

theorem magnitude_snd_pos (m : Nat) (e : Int) : 0 < (magnitude m e).2 := by
  cases e with
  | ofNat k => exact Nat.one_pos
  | negSucc k => exact Nat.two_pow_pos _

theorem quotient_eq_iff {n d n' d' : Nat} (positive : 0 < d) (positive' : 0 < d') :
    quotient (n, d) = quotient (n', d') ↔ n * d' = n' * d := by
  rw [quotient, quotient, div_eq_div_iff (by positivity) (by positivity)]
  exact_mod_cast Iff.rfl

/-! ## The exponent -/

/-- Numbers of this size have this exponent. -/
structure Suits (v : ℚ) (e : Int) : Prop where
  below : v < 2 ^ (53 + e)
  least : -1074 ≤ e
  full : 2 ^ (52 + e) ≤ v ∨ e = -1074

theorem Suits.le {v : ℚ} {e f : Int} (one : Suits v e) (two : Suits v f) : e ≤ f := by
  rcases one.full with full | least
  · have powers : (2 : ℚ) ^ (52 + e) < 2 ^ (53 + f) := lt_of_le_of_lt full two.below
    have exponents := (zpow_lt_zpow_iff_right₀ one_lt_two).1 powers
    omega
  · exact least ▸ two.least

theorem Suits.unique {v : ℚ} {e f : Int} (one : Suits v e) (two : Suits v f) : e = f :=
  le_antisymm (one.le two) (two.le one)

/-- A positive number lies between two neighbouring powers of two. -/
theorem log2_bounds {n : Nat} (positive : n ≠ 0) :
    (2 : ℚ) ^ (Nat.log2 n : Int) ≤ n ∧ (n : ℚ) < 2 ^ ((Nat.log2 n : Int) + 1) := by
  have least := Nat.log2_self_le positive
  have below : n < 2 ^ (Nat.log2 n + 1) := Nat.lt_log2_self
  constructor
  · rw [zpow_natCast]
    exact_mod_cast least
  · rw [← Nat.cast_succ, zpow_natCast]
    exact_mod_cast below

/-- The estimate from the binary lengths is right or too small by one. -/
theorem quotient_bounds {num den : Nat} (positive : num ≠ 0) (positive' : den ≠ 0) :
    (2 : ℚ) ^ ((Nat.log2 num : Int) - Nat.log2 den - 1) < quotient (num, den) ∧
      quotient (num, den) < 2 ^ ((Nat.log2 num : Int) - Nat.log2 den + 1) := by
  obtain ⟨numLeast, numBelow⟩ := log2_bounds positive
  obtain ⟨denLeast, denBelow⟩ := log2_bounds positive'
  have denPositive : (0 : ℚ) < den := by positivity
  have two : (2 : ℚ) ≠ 0 := two_ne_zero
  constructor
  · rw [quotient, lt_div_iff₀ denPositive]
    calc (2 : ℚ) ^ ((Nat.log2 num : Int) - Nat.log2 den - 1) * den
        < 2 ^ ((Nat.log2 num : Int) - Nat.log2 den - 1) * 2 ^ ((Nat.log2 den : Int) + 1) := by
          gcongr
      _ = 2 ^ (Nat.log2 num : Int) := by
          rw [← zpow_add₀ two]
          congr 1
          ring
      _ ≤ num := numLeast
  · rw [quotient, div_lt_iff₀ denPositive]
    calc (num : ℚ) < 2 ^ ((Nat.log2 num : Int) + 1) := numBelow
      _ = 2 ^ ((Nat.log2 num : Int) - Nat.log2 den + 1) * 2 ^ (Nat.log2 den : Int) := by
          rw [← zpow_add₀ two]
          congr 1
          ring
      _ ≤ 2 ^ ((Nat.log2 num : Int) - Nat.log2 den + 1) * den := by gcongr

/-- Whether a rounded-down quotient is below a bound. -/
theorem div_lt_iff_quotient_lt {n d bound : Nat} (positive : 0 < d) :
    n / d < bound ↔ quotient (n, d) < bound := by
  rw [Nat.div_lt_iff_lt_mul positive, quotient, div_lt_iff₀ (by positivity)]
  exact_mod_cast Iff.rfl

theorem suits_exponentFor {num den : Nat} (positive : num ≠ 0) (positive' : 0 < den) :
    Suits (quotient (num, den)) (exponentFor num den) := by
  obtain ⟨least, below⟩ := quotient_bounds positive positive'.ne'
  set estimate := (Nat.log2 num : Int) - Nat.log2 den - 53 with estimated
  rw [show (Nat.log2 num : Int) - Nat.log2 den - 1 = 52 + estimate by omega] at least
  rw [show (Nat.log2 num : Int) - Nat.log2 den + 1 = 53 + (estimate + 1) by omega] at below
  have fits : (scaled num den estimate).1 / (scaled num den estimate).2 < 2 ^ 53 ↔
      quotient (num, den) < 2 ^ (53 + estimate) := by
    rw [div_lt_iff_quotient_lt (scaled_snd_pos positive' num estimate), Prod.mk.eta,
      quotient_scaled, div_lt_iff₀ (by positivity), zpow_add₀ two_ne_zero]
    norm_num
  -- the exponent before it is bounded from below
  obtain ⟨e, chosen, most, full⟩ : ∃ e, exponentFor num den = max e (-1074) ∧
      quotient (num, den) < 2 ^ (53 + e) ∧ 2 ^ (52 + e) ≤ quotient (num, den) := by
    by_cases small : (scaled num den estimate).1 / (scaled num den estimate).2 < 2 ^ 53
    · refine ⟨estimate, ?_, fits.1 small, least.le⟩
      simp only [exponentFor, ← estimated, Nat.pow_eq, if_pos small]
    · refine ⟨estimate + 1, ?_, below, ?_⟩
      · simp only [exponentFor, ← estimated, Nat.pow_eq, if_neg small]
      · rw [show 52 + (estimate + 1) = 53 + estimate by omega]
        exact not_lt.1 (mt fits.2 small)
  rw [chosen]
  refine ⟨lt_of_lt_of_le most ?_, le_max_right _ _, ?_⟩
  · exact zpow_le_zpow_right₀ one_le_two (by omega)
  · rcases le_total e (-1074) with low | high
    · exact .inr (max_eq_right low)
    · rw [max_eq_left high]
      exact .inl full

/-! ## The mantissa -/

theorem roundHalfEven_mul_right (m : Nat) {d : Nat} (positive : 0 < d) :
    roundHalfEven (m * d) d = m := by
  rw [roundHalfEven, Nat.mul_mod_left, Nat.mul_div_cancel m positive, if_pos (by simpa using positive)]

theorem roundHalfEven_mul_left {k : Nat} (positive : 0 < k) (n d : Nat) :
    roundHalfEven (k * n) (k * d) = roundHalfEven n d := by
  have less (a b : Nat) : 2 * (k * a) < k * b ↔ 2 * a < b := by
    rw [← Nat.mul_assoc, Nat.mul_comm 2 k, Nat.mul_assoc, Nat.mul_lt_mul_left positive]
  have greater (a b : Nat) : k * b < 2 * (k * a) ↔ b < 2 * a := by
    rw [← Nat.mul_assoc, Nat.mul_comm 2 k, Nat.mul_assoc, Nat.mul_lt_mul_left positive]
  simp only [roundHalfEven, Nat.mul_div_mul_left n d positive, Nat.mul_mod_mul_left, less, greater]

theorem roundHalfEven_congr {n d n' d' : Nat} (positive : 0 < d) (positive' : 0 < d')
    (same : quotient (n, d) = quotient (n', d')) : roundHalfEven n d = roundHalfEven n' d' := by
  have crossed := (quotient_eq_iff positive positive').1 same
  calc roundHalfEven n d = roundHalfEven (d' * n) (d' * d) := (roundHalfEven_mul_left positive' n d).symm
    _ = roundHalfEven (d * n') (d * d') := by
        rw [Nat.mul_comm d' n, crossed, Nat.mul_comm n' d, Nat.mul_comm d' d]
    _ = roundHalfEven n' d' := roundHalfEven_mul_left positive n' d'

theorem roundHalfEven_bounds (n d : Nat) :
    n / d ≤ roundHalfEven n d ∧ roundHalfEven n d ≤ n / d + 1 := by
  simp only [roundHalfEven]
  split
  · omega
  split
  · omega
  split <;> omega

/-! ## Rounding -/

theorem ofRatio_eq {num : Nat} (nonzero : num ≠ 0) (negative : Bool) (den : Nat) :
    ofRatio negative num den =
      pack negative (roundHalfEven (scaled num den (exponentFor num den)).1
        (scaled num den (exponentFor num den)).2) (exponentFor num den) := by
  rw [ofRatio, if_neg nonzero]

theorem pack_eq {m : Nat} {e : Int} (packed : Packed m e) (negative : Bool) :
    pack negative m e = .finite negative m e := by
  have small := packed.small
  have most := packed.most
  rw [pack, if_neg (by rw [Nat.pow_eq]; omega)]
  exact if_neg (by omega)

/-- A value that is too large is infinite. -/
theorem canonical_finite {m : Nat} {e : Int} (small : m < 2 ^ 53) (least : -1074 ≤ e)
    (full : 2 ^ 52 ≤ m ∨ e = -1074) (negative : Bool) :
    (if 971 < e then infinite negative else finite negative m e).Canonical := by
  split
  · exact trivial
  · exact ⟨small, least, by omega, full⟩

theorem canonical_pack {m : Nat} {e : Int} (small : m ≤ 2 ^ 53) (least : -1074 ≤ e)
    (full : 2 ^ 52 ≤ m ∨ e = -1074) (negative : Bool) : (pack negative m e).Canonical := by
  rw [pack, Nat.pow_eq, Nat.pow_eq]
  by_cases rounded : m = 2 ^ 53
  · rw [if_pos rounded]
    exact canonical_finite (by norm_num) (by omega) (.inl (le_refl _)) negative
  · rw [if_neg rounded]
    exact canonical_finite (by omega) least full negative

/-- The value with this sign. -/
def signed (negative : Bool) : Binary64 → Binary64
  | .finite _ m e => .finite negative m e
  | .infinite _ => .infinite negative
  | .nan => .nan

theorem pack_signed (negative : Bool) (m : Nat) (e : Int) :
    pack negative m e = (pack false m e).signed negative := by
  unfold pack
  dsimp only
  split <;> rw [apply_ite (signed negative)] <;> rfl

variable {num den : Nat}

theorem ofRatio_signed (negative : Bool) (num den : Nat) :
    ofRatio negative num den = (ofRatio false num den).signed negative := by
  by_cases zero : num = 0
  · rw [ofRatio, ofRatio, if_pos zero, if_pos zero]
    rfl
  · rw [ofRatio_eq zero, ofRatio_eq zero]
    exact pack_signed _ _ _

theorem ofRatio_canonical (negative : Bool) (num : Nat) (positive : 0 < den) :
    (ofRatio negative num den).Canonical := by
  by_cases zero : num = 0
  · rw [ofRatio, if_pos zero]
    exact canonical_zero negative
  · have suits := suits_exponentFor zero positive
    rw [ofRatio_eq zero]
    set e := exponentFor num den
    have positive' := scaled_snd_pos positive num e
    obtain ⟨least, most⟩ := roundHalfEven_bounds (scaled num den e).1 (scaled num den e).2
    have two : (0 : ℚ) < 2 ^ e := by positivity
    have below : (scaled num den e).1 / (scaled num den e).2 < 2 ^ 53 := by
      rw [div_lt_iff_quotient_lt positive', Prod.mk.eta, quotient_scaled, div_lt_iff₀ two]
      have bound := suits.below
      rw [zpow_add₀ two_ne_zero] at bound
      exact_mod_cast bound
    refine canonical_pack (by omega) suits.least (suits.full.imp_left fun full => ?_) negative
    have reached : ¬ (scaled num den e).1 / (scaled num den e).2 < 2 ^ 52 := by
      rw [div_lt_iff_quotient_lt positive', Prod.mk.eta, quotient_scaled, div_lt_iff₀ two, not_lt]
      rw [zpow_add₀ two_ne_zero] at full
      exact_mod_cast full
    omega

/-- Rounding depends on the rational number alone. -/
theorem ofRatio_congr (negative : Bool) {r r' : Nat × Nat} (positive : 0 < r.2)
    (positive' : 0 < r'.2) (same : quotient r = quotient r') :
    ofRatio negative r.1 r.2 = ofRatio negative r'.1 r'.2 := by
  have crossed := (quotient_eq_iff positive positive').1 same
  by_cases zero : r.1 = 0
  · have zero' : r'.1 = 0 := by
      rw [zero, Nat.zero_mul] at crossed
      exact (Nat.mul_eq_zero.1 crossed.symm).resolve_right positive.ne'
    rw [ofRatio, ofRatio, if_pos zero, if_pos zero']
  · have zero' : r'.1 ≠ 0 := by
      intro none
      rw [none, Nat.zero_mul] at crossed
      exact (Nat.mul_eq_zero.1 crossed).elim zero positive'.ne'
    have exponents : exponentFor r.1 r.2 = exponentFor r'.1 r'.2 :=
      (suits_exponentFor zero positive).unique (same ▸ suits_exponentFor zero' positive')
    have mantissas : quotient (scaled r.1 r.2 (exponentFor r'.1 r'.2)) =
        quotient (scaled r'.1 r'.2 (exponentFor r'.1 r'.2)) := by
      rw [quotient_scaled, quotient_scaled]
      exact congrArg (· / _) same
    rw [ofRatio_eq zero, ofRatio_eq zero', exponents]
    exact congrArg (pack negative · _) (roundHalfEven_congr (scaled_snd_pos positive _ _)
      (scaled_snd_pos positive' _ _) mantissas)

/-- A number with a mantissa and an exponent of the right size keeps them. -/
theorem ofRatio_of_quotient {m : Nat} {e : Int} (small : m < 2 ^ 53) (least : -1074 ≤ e)
    (full : 2 ^ 52 ≤ m ∨ e = -1074) (nonzero : m ≠ 0) (negative : Bool) (positive : 0 < den)
    (exact : quotient (num, den) = m * 2 ^ e) : ofRatio negative num den = pack negative m e := by
  have two : (0 : ℚ) < 2 ^ e := by positivity
  have zero : num ≠ 0 := by
    rintro rfl
    have product : (m : ℚ) * 2 ^ e ≠ 0 := mul_ne_zero (Nat.cast_ne_zero.2 nonzero) two.ne'
    exact product (exact ▸ by simp [quotient])
  have suits : Suits (quotient (num, den)) e := by
    rw [exact]
    refine ⟨?_, least, full.imp_left fun full => ?_⟩
    · rw [zpow_add₀ two_ne_zero]
      gcongr
      exact_mod_cast small
    · rw [zpow_add₀ two_ne_zero]
      gcongr
      exact_mod_cast full
  have exponent : exponentFor num den = e := (suits_exponentFor zero positive).unique suits
  have positive' := scaled_snd_pos positive num e
  have mantissa : quotient (scaled num den e) = quotient (m * (scaled num den e).2,
      (scaled num den e).2) := by
    rw [quotient_scaled, exact, mul_div_assoc, div_self two.ne', mul_one, quotient]
    push_cast
    rw [mul_div_assoc, div_self (by positivity), mul_one]
  have rounded := roundHalfEven_congr positive' positive' mantissa
  rw [roundHalfEven_mul_right m positive'] at rounded
  rw [ofRatio_eq zero, exponent]
  exact congrArg (pack negative · e) rounded

/-- A number that is a value of floating point is not changed. -/
theorem ofRatio_packed {m : Nat} {e : Int} (packed : Packed m e) (nonzero : m ≠ 0)
    (negative : Bool) (positive : 0 < den) (exact : quotient (num, den) = m * 2 ^ e) :
    ofRatio negative num den = .finite negative m e :=
  (ofRatio_of_quotient packed.small packed.least packed.full nonzero negative positive exact).trans
    (pack_eq packed negative)

/-! ## How far rounding goes -/

theorem quotient_magnitude (m : Nat) (e : Int) : quotient (magnitude m e) = m * 2 ^ e := by
  cases e with
  | ofNat k => simp [quotient, magnitude]
  | negSucc k => simp [quotient, magnitude, zpow_negSucc, div_eq_mul_inv]

/-- A finite value has the size of its mantissa before that was packed. -/
theorem quotient_magnitude_pack {negative sign : Bool} {mantissa m : Nat} {exponent e : Int}
    (packed : pack negative mantissa exponent = .finite sign m e) :
    quotient (magnitude m e) = mantissa * 2 ^ exponent := by
  rw [quotient_magnitude]
  unfold pack at packed
  by_cases rounded : mantissa = Nat.pow 2 53
  · simp only [rounded, if_true] at packed
    split at packed
    · cases packed
    · cases packed
      rw [rounded, zpow_add₀ two_ne_zero]
      norm_num
      ring
  · simp only [rounded, if_false] at packed
    split at packed
    · cases packed
    · cases packed
      rfl

/-- The nearest integer is at most one beyond the number. -/
theorem roundHalfEven_le_quotient (n : Nat) {d : Nat} (positive : 0 < d) :
    (roundHalfEven n d : ℚ) ≤ quotient (n, d) + 1 := by
  have floor : ((n / d : Nat) : ℚ) ≤ quotient (n, d) :=
    not_lt.1 (mt (div_lt_iff_quotient_lt positive).2 (lt_irrefl _))
  have most : (roundHalfEven n d : ℚ) ≤ (n / d : Nat) + 1 := by
    exact_mod_cast (roundHalfEven_bounds n d).2
  exact most.trans (by gcongr)

/-- Rounding adds at most a unit in the last place, and this is small next to the number, or is the
least one that there is. -/
theorem quotient_magnitude_ofRatio_le {negative sign : Bool} {m : Nat} {e : Int}
    (positive : 0 < den) (made : ofRatio negative num den = .finite sign m e) :
    quotient (magnitude m e) ≤
      quotient (num, den) + (quotient (num, den) / 2 ^ 52 + 2 ^ (-1074 : Int)) := by
  by_cases zero : num = 0
  · rw [ofRatio, if_pos zero] at made
    cases made
    rw [zero, quotient_magnitude]
    simp [quotient]
  · have suits := suits_exponentFor zero positive
    rw [ofRatio_eq zero] at made
    rw [quotient_magnitude_pack made]
    set f := exponentFor num den
    set v := quotient (num, den) with value
    have two : (0 : ℚ) < 2 ^ f := by positivity
    have nonnegative : 0 ≤ v := by
      rw [value, quotient]
      positivity
    have unit : (2 : ℚ) ^ f ≤ v / 2 ^ 52 + 2 ^ (-1074 : Int) := by
      rcases suits.full with full | least
      · rw [zpow_add₀ two_ne_zero] at full
        have small : (2 : ℚ) ^ f ≤ v / 2 ^ 52 := by
          rw [le_div_iff₀ (by positivity), mul_comm]
          exact_mod_cast full
        exact small.trans (le_add_of_nonneg_right (by positivity))
      · rw [least]
        exact le_add_of_nonneg_left (by positivity)
    have rounded : (roundHalfEven (scaled num den f).1 (scaled num den f).2 : ℚ) ≤
        v / 2 ^ f + 1 := by
      rw [← quotient_scaled]
      exact roundHalfEven_le_quotient _ (scaled_snd_pos positive num f)
    calc _ ≤ (v / 2 ^ f + 1) * 2 ^ f := by gcongr
      _ = v + 2 ^ f := by field_simp
      _ ≤ _ := by gcongr

/-! ## Operations on values -/

theorem canonical_add (x y : Binary64) : (x.add y).Canonical := by
  have sum (total : Int) (negative : Bool) (m n : Nat) (e f : Int) :
      (if total = 0 then zero negative
        else ofSignedRatio total ((magnitude m e).2 * (magnitude n f).2)).Canonical := by
    split
    · exact canonical_zero negative
    · exact ofRatio_canonical _ _ (Nat.mul_pos (magnitude_snd_pos m e) (magnitude_snd_pos n f))
  unfold add
  split
  · exact trivial
  · exact trivial
  · split <;> exact trivial
  · exact trivial
  · exact trivial
  · exact sum _ _ _ _ _ _

end LogAlert.Binary64

namespace LogAlert.Decimal

open Binary64

/-! ## Decimal numbers -/

theorem quotient_ratio (x : Decimal) : quotient x.ratio = x.digits * 10 ^ x.exponent := by
  obtain ⟨digits, exponent⟩ := x
  cases exponent with
  | ofNat k => simp [quotient, ratio]
  | negSucc k => simp [quotient, ratio, div_eq_mul_inv]

theorem ratio_snd_pos (x : Decimal) : 0 < x.ratio.2 := by
  obtain ⟨digits, exponent⟩ := x
  cases exponent with
  | ofNat k => exact Nat.one_pos
  | negSucc k => exact Nat.pow_pos (by decide)

theorem toBinary_eq (negative : Bool) (x : Decimal) :
    x.toBinary negative =
      if x.digits = 0 ∨ (width x.digits : Int) + x.exponent < -400 then zero negative
      else if 400 < (width x.digits : Int) + x.exponent then infinite negative
      else ofRatio negative x.ratio.1 x.ratio.2 := rfl

theorem canonical_toBinary (negative : Bool) (x : Decimal) : (x.toBinary negative).Canonical := by
  rw [toBinary_eq]
  split
  · exact canonical_zero negative
  split
  · exact trivial
  · exact ofRatio_canonical negative _ x.ratio_snd_pos

theorem width_mul_ten {d : Nat} (nonzero : d ≠ 0) : width (d * 10) = width d + 1 := by
  rw [width, Nat.toDigits_of_base_le (by decide) (by omega), Nat.mul_div_cancel d (by decide),
    List.length_append]
  rfl

/-- A zero behind the digits makes no difference. -/
theorem toBinary_mul_ten (negative : Bool) (d : Nat) (e : Int) :
    (⟨d * 10, e - 1⟩ : Decimal).toBinary negative = (⟨d, e⟩ : Decimal).toBinary negative := by
  by_cases zero : d = 0
  · rw [zero, Nat.zero_mul]
    rfl
  · have size : (width (d * 10) : Int) + (e - 1) = width d + e := by
      rw [width_mul_ten zero]
      push_cast
      ring
    have same : quotient (⟨d * 10, e - 1⟩ : Decimal).ratio = quotient (⟨d, e⟩ : Decimal).ratio := by
      rw [quotient_ratio, quotient_ratio, zpow_sub₀ (by norm_num)]
      push_cast
      ring
    rw [toBinary_eq, toBinary_eq, ofRatio_congr negative (ratio_snd_pos _) (ratio_snd_pos _) same,
      size]
    simp only [Nat.mul_eq_zero, OfNat.ofNat_ne_zero, or_false]

theorem toBinary_mul_pow (negative : Bool) (d k : Nat) (e : Int) :
    (⟨d * 10 ^ k, e - k⟩ : Decimal).toBinary negative = (⟨d, e⟩ : Decimal).toBinary negative := by
  induction k with
  | zero => rw [Nat.pow_zero, Nat.mul_one, Nat.cast_zero, sub_zero]
  | succ k ih =>
      rw [Nat.pow_succ, ← Nat.mul_assoc, Nat.cast_succ, ← sub_sub, toBinary_mul_ten, ih]

/-- The sign has no influence on the rest. -/
theorem toBinary_signed (negative : Bool) (x : Decimal) :
    x.toBinary negative = (x.toBinary false).signed negative := by
  rw [toBinary_eq, toBinary_eq, apply_ite (signed negative), apply_ite (signed negative),
    ← ofRatio_signed]
  rfl

/-! ## The exact expansion -/

theorem quotient_exact (m : Nat) (e : Int) : quotient (exact m e).ratio = m * 2 ^ e := by
  rw [quotient_ratio]
  cases e with
  | ofNat k => simp [exact]
  | negSucc k =>
      have tens : (10 : ℚ) ^ (k + 1) = 5 ^ (k + 1) * 2 ^ (k + 1) := by
        rw [← mul_pow]
        norm_num
      rw [exact, show (-((k : Int) + 1)) = Int.negSucc k from (Int.negSucc_eq k).symm]
      simp only [zpow_negSucc, Nat.pow_eq]
      push_cast
      rw [tens]
      field_simp

theorem two_pow_le_ten_pow {k n : Nat} (within : k ≤ 3 * n) : 2 ^ k ≤ 10 ^ n :=
  calc 2 ^ k ≤ 2 ^ (3 * n) := Nat.pow_le_pow_right (by decide) within
    _ = 8 ^ n := by rw [Nat.pow_mul]
    _ ≤ 10 ^ n := Nat.pow_le_pow_left (by decide) n

/-- The exact expansion of a value is neither too large nor too small to be read. -/
theorem exact_size {m : Nat} {e : Int} (packed : Packed m e) (nonzero : m ≠ 0) :
    -400 ≤ (width (exact m e).digits : Int) + (exact m e).exponent ∧
      (width (exact m e).digits : Int) + (exact m e).exponent ≤ 400 := by
  have small := packed.small
  have positive : 0 < m := Nat.pos_of_ne_zero nonzero
  cases e with
  | ofNat k =>
      have most : k ≤ 971 := by
        have bound := packed.most
        rw [Int.ofNat_eq_natCast] at bound
        omega
      have short : width (m * 2 ^ k) ≤ (53 + k) / 3 + 1 := by
        refine (Nat.length_toDigits_le_iff (by decide) (Nat.succ_pos _)).2 ?_
        calc m * 2 ^ k < 2 ^ 53 * 2 ^ k := Nat.mul_lt_mul_of_pos_right small (Nat.two_pow_pos k)
          _ = 2 ^ (53 + k) := (Nat.pow_add 2 53 k).symm
          _ ≤ 10 ^ ((53 + k) / 3 + 1) := two_pow_le_ten_pow (by omega)
      simp only [exact, Nat.pow_eq]
      omega
  | negSucc k =>
      obtain ⟨n, powers, most⟩ : ∃ n, k + 1 ≤ 3 * n ∧ n ≤ 400 :=
        ⟨358, by have bound := packed.least; omega, by decide⟩
      set digits := m * 5 ^ (k + 1) with expanded
      have widthPos : 0 < width digits := List.length_pos_iff.2 Nat.toDigits_ne_nil
      have large : 5 ^ (k + 1) ≤ digits := Nat.le_mul_of_pos_left _ positive
      have below : digits < 10 ^ width digits :=
        (Nat.length_toDigits_le_iff (by decide) widthPos).1 (le_refl _)
      have least : k + 1 ≤ width digits + n := by
        by_contra short
        have tens : 10 ^ (width digits + n) < 10 ^ (width digits + n) :=
          calc 10 ^ (width digits + n) ≤ 10 ^ (k + 1) :=
                Nat.pow_le_pow_right (by decide) (by omega)
            _ = 5 ^ (k + 1) * 2 ^ (k + 1) := by rw [← Nat.mul_pow]
            _ < 10 ^ width digits * 2 ^ (k + 1) :=
                Nat.mul_lt_mul_of_pos_right (lt_of_le_of_lt large below) (Nat.two_pow_pos _)
            _ ≤ 10 ^ width digits * 10 ^ n :=
                Nat.mul_le_mul_left _ (two_pow_le_ten_pow powers)
            _ = 10 ^ (width digits + n) := (Nat.pow_add _ _ _).symm
        exact lt_irrefl _ tens
      have most' : width digits ≤ k + 1 + 16 := by
        refine (Nat.length_toDigits_le_iff (by decide) (by omega)).2 ?_
        calc digits < 2 ^ 53 * 5 ^ (k + 1) :=
              Nat.mul_lt_mul_of_pos_right small (Nat.pow_pos (by decide))
          _ ≤ 10 ^ 16 * 10 ^ (k + 1) :=
              Nat.mul_le_mul (by norm_num) (Nat.pow_le_pow_left (by decide) _)
          _ = 10 ^ (k + 1 + 16) := by rw [← Nat.pow_add, Nat.add_comm]
      simp only [exact, Nat.pow_eq, ← expanded]
      omega

theorem toBinary_exact {m : Nat} {e : Int} (packed : Packed m e) (nonzero : m ≠ 0) :
    (exact m e).toBinary false = .finite false m e := by
  obtain ⟨least, most⟩ := exact_size packed nonzero
  have rounded := ofRatio_packed packed nonzero false (exact m e).ratio_snd_pos (quotient_exact m e)
  have digits : (exact m e).digits ≠ 0 := by
    cases e with
    | ofNat k => exact Nat.mul_ne_zero nonzero (Nat.two_pow_pos k).ne'
    | negSucc k => exact Nat.mul_ne_zero nonzero (Nat.pow_pos (by decide)).ne'
  simp only [toBinary]
  rw [if_neg (by omega), if_neg (by omega)]
  exact rounded

/-- **A value is read back from its shortest digits.** -/
theorem toBinary_shortest {m : Nat} {e : Int} (packed : Packed m e) (nonzero : m ≠ 0)
    (negative : Bool) : (shortest m e).toBinary negative = .finite negative m e := by
  have candidate : exact m e ∈ candidates m e := List.mem_append_right _ (List.mem_singleton_self _)
  rw [toBinary_signed, reads_shortest nonzero ⟨_, candidate, toBinary_exact packed nonzero⟩]
  rfl

end LogAlert.Decimal

namespace LogAlert.Binary64

theorem canonical_of_read? {text : String} {x : Binary64} (found : read? text = some x) :
    x.Canonical := by
  simp only [read?] at found
  split at found
  · cases found
    exact trivial
  split at found
  · cases found
    exact trivial
  · obtain ⟨decimal, -, rfl⟩ := Option.map_eq_some_iff.1 found
    exact decimal.canonical_toBinary _

end LogAlert.Binary64
