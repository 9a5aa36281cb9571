/-
# LogAlert.Proofs.Number.Doubling -- doubling is exact

A value of floating point that is doubled again and again stays exact until it is too large for a
finite value, and then it is infinite.  `scaledUp` is the value times a power of two, rounded once:
doubling is scaling by one (`mul_two`), scaling by one and then by more is scaling at once
(`scaledUp_scaledUp_one`), and the result is the exact product unless it is infinite
(`scaledUp_exact`).
-/
import LogAlert.Proofs.Number.Rounding

set_option autoImplicit false

namespace LogAlert.Binary64

/-- The value nearest to a value times a power of two. -/
def scaledUp (k : Nat) : Binary64 → Binary64
  | .finite negative m e =>
    ofRatio negative ((magnitude m e).1 * 2 ^ k) (magnitude m e).2
  | x => x

variable {m : Nat} {e : Int} {x : Binary64}

/-- The size of a value times a natural number. -/
theorem quotient_magnitude_mul (m : Nat) (e : Int) (n : Nat) :
    quotient ((magnitude m e).1 * n, (magnitude m e).2) = m * 2 ^ e * n := by
  rw [← quotient_magnitude, quotient, quotient, Nat.cast_mul, mul_div_right_comm]

theorem ofRatio_eq_ofRatio {n d n' d' : Nat} (negative : Bool) (positive : 0 < d)
    (positive' : 0 < d') (same : quotient (n, d) = quotient (n', d')) :
    ofRatio negative n d = ofRatio negative n' d' :=
  @ofRatio_congr negative (n, d) (n', d') positive positive' same

theorem magnitude_zero (e : Int) : (magnitude 0 e).1 = 0 := by
  cases e with
  | ofNat k => exact Nat.zero_mul _
  | negSucc k => rfl

/-- Twice a value is exact, unless the value was one of the largest, and then it is infinite. -/
theorem scaledUp_one_cases (packed : Packed m e) (negative : Bool) :
    (∃ m' e', scaledUp 1 (.finite negative m e) = .finite negative m' e' ∧ Packed m' e' ∧
        (m' : ℚ) * 2 ^ e' = m * 2 ^ e * 2) ∨
      2 ^ 52 ≤ m ∧ e = 971 ∧ scaledUp 1 (.finite negative m e) = .infinite negative := by
  have positive := magnitude_snd_pos m e
  have small := packed.small
  have twice : quotient ((magnitude m e).1 * 2 ^ 1, (magnitude m e).2) = m * 2 ^ e * 2 :=
    quotient_magnitude_mul m e 2
  have next : (m : ℚ) * 2 ^ e * 2 = m * 2 ^ (e + 1) := by
    rw [zpow_add_one₀ two_ne_zero, mul_assoc]
  by_cases none : m = 0
  · subst none
    refine .inl ⟨0, -1074, ?_, ⟨by norm_num, le_refl _, by norm_num, .inr rfl⟩, by simp⟩
    rw [scaledUp, magnitude_zero, Nat.zero_mul]
    rfl
  · by_cases full : 2 ^ 52 ≤ m
    · by_cases last : e = 971
      · refine .inr ⟨full, last, ?_⟩
        rw [scaledUp, ofRatio_of_quotient small (by omega) (.inl full) none negative positive
          (twice.trans next), pack, if_neg (by rw [Nat.pow_eq]; omega)]
        exact if_pos (by omega)
      · have most := packed.most
        have least := packed.least
        have above : Packed m (e + 1) := ⟨small, by omega, by omega, .inl full⟩
        exact .inl ⟨m, e + 1, ofRatio_packed above none negative positive (twice.trans next), above,
          next.symm⟩
    · have least : e = -1074 := packed.full.resolve_left full
      have wider : Packed (m * 2) e := ⟨by omega, packed.least, packed.most, .inr least⟩
      have product : (m : ℚ) * 2 ^ e * 2 = (m * 2 : Nat) * 2 ^ e := by
        push_cast
        ring
      exact .inl ⟨m * 2, e, ofRatio_packed wider (by omega) negative positive
        (twice.trans product), wider, product.symm⟩

theorem scaledUp_zero (canonical : x.Canonical) : x.scaledUp 0 = x := by
  cases x with
  | finite negative m e =>
      by_cases none : m = 0
      · have least : e = -1074 := canonical.full.resolve_left (by omega)
        subst none least
        rfl
      · have same : (m : ℚ) * 2 ^ e * (2 ^ 0 : Nat) = m * 2 ^ e := by
          rw [pow_zero, Nat.cast_one, mul_one]
        exact ofRatio_packed canonical none negative (magnitude_snd_pos m e)
          ((quotient_magnitude_mul m e (2 ^ 0)).trans same)
  | infinite negative => rfl
  | nan => rfl

theorem canonical_scaledUp (canonical : x.Canonical) (k : Nat) : (x.scaledUp k).Canonical := by
  cases x with
  | finite negative m e => exact ofRatio_canonical negative _ (magnitude_snd_pos m e)
  | infinite negative => exact canonical
  | nan => exact canonical

/-- Scaling after doubling is scaling at once. -/
theorem scaledUp_scaledUp_one (canonical : x.Canonical) (k : Nat) :
    (x.scaledUp 1).scaledUp k = x.scaledUp (k + 1) := by
  cases x with
  | finite negative m e =>
      have product := quotient_magnitude_mul m e (2 ^ (k + 1))
      obtain ⟨m', e', doubled, packed, exact⟩ | ⟨full, last, doubled⟩ :=
        scaledUp_one_cases canonical negative
      · have same : quotient ((magnitude m' e').1 * 2 ^ k, (magnitude m' e').2) =
            quotient ((magnitude m e).1 * 2 ^ (k + 1), (magnitude m e).2) := by
          rw [product, quotient_magnitude_mul, exact]
          push_cast
          ring
        rw [doubled]
        exact ofRatio_eq_ofRatio negative (magnitude_snd_pos m' e') (magnitude_snd_pos m e) same
      · have beyond : (m : ℚ) * 2 ^ e * (2 ^ (k + 1) : Nat) = m * 2 ^ (e + (k + 1 : Nat)) := by
          rw [zpow_add₀ two_ne_zero, zpow_natCast, mul_assoc]
          push_cast
          rfl
        have rounded := ofRatio_of_quotient canonical.small (by omega) (.inl full) (by omega)
          negative (magnitude_snd_pos m e) (product.trans beyond)
        have small := canonical.small
        rw [doubled]
        refine Eq.trans ?_ rounded.symm
        rw [pack, if_neg (by rw [Nat.pow_eq]; omega)]
        exact (if_pos (by omega)).symm
  | infinite negative => rfl
  | nan => rfl

/-- **Scaling is exact**, unless the result is infinite. -/
theorem scaledUp_exact {negative sign : Bool} {m' : Nat} {e' : Int} {k : Nat} (packed : Packed m e)
    (scaled : scaledUp k (.finite negative m e) = .finite sign m' e') :
    sign = negative ∧ (m' : ℚ) * 2 ^ e' = m * 2 ^ e * 2 ^ k := by
  induction k generalizing m e with
  | zero =>
      have canonical : Canonical (.finite negative m e) := packed
      rw [scaledUp_zero canonical] at scaled
      cases scaled
      exact ⟨rfl, by rw [pow_zero, mul_one]⟩
  | succ k ih =>
      have canonical : Canonical (.finite negative m e) := packed
      rw [← scaledUp_scaledUp_one canonical] at scaled
      obtain ⟨m₁, e₁, doubled, packed₁, exact⟩ | ⟨-, -, doubled⟩ :=
        scaledUp_one_cases packed negative
      · rw [doubled] at scaled
        obtain ⟨sameSign, product⟩ := ih packed₁ scaled
        refine ⟨sameSign, ?_⟩
        rw [product, exact]
        ring
      · rw [doubled] at scaled
        cases scaled

/-- The product with two is the double. -/
theorem mul_two (x : Binary64) : x.mul (ofRatio false 2 1) = x.scaledUp 1 := by
  have two : ofRatio false 2 1 = .finite false (2 ^ 52) (-51) := by decide
  rw [two]
  cases x with
  | finite negative m e =>
      have positive : 0 < (magnitude m e).2 * (magnitude (2 ^ 52) (-51)).2 :=
        Nat.mul_pos (magnitude_snd_pos m e) (magnitude_snd_pos _ _)
      have same : quotient ((magnitude m e).1 * (magnitude (2 ^ 52) (-51)).1,
          (magnitude m e).2 * (magnitude (2 ^ 52) (-51)).2) =
          quotient ((magnitude m e).1 * 2 ^ 1, (magnitude m e).2) := by
        refine (quotient_eq_iff positive (magnitude_snd_pos m e)).2 ?_
        change _ * 2 ^ 52 * _ = _ * 2 ^ 1 * (_ * 2 ^ 51)
        ring
      rw [mul, Bool.bne_false]
      exact ofRatio_eq_ofRatio negative positive (magnitude_snd_pos m e) same
  | infinite negative => exact congrArg infinite (Bool.bne_false negative)
  | nan => rfl

end LogAlert.Binary64
