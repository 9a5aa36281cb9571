/-
# LogAlert.Proofs.Json.Floats -- values of floating point come back as they were

The text of a value is read as the decimal number that it spells, which is that of the shortest
digits of the value, written with other zeros in front or behind.  So a value that has the form in
which values are made is read back from its text as it was (`reread_of_canonical`).
-/
import LogAlert.Proofs.Json.Numerals
import LogAlert.Proofs.Number.Rounding
import Mathlib.Data.List.TakeWhile

set_option autoImplicit false

namespace LogAlert.Json

theorem digitsNat_append_zeros (ds : List Char) (k : Nat) :
    digitsNat (ds ++ List.replicate k '0') = digitsNat ds * 10 ^ k := by
  induction k with
  | zero => simp
  | succ k ih =>
      rw [List.replicate_succ', ← List.append_assoc, Nat.pow_succ, ← Nat.mul_assoc, ← ih]
      simp only [digitsNat, Text.ofDigits, List.map_append, List.foldl_append]
      exact Nat.mul_comm _ _

theorem digitsNat_zeros_append (k : Nat) (ds : List Char) :
    digitsNat (List.replicate k '0' ++ ds) = digitsNat ds := by
  induction k with
  | zero => rfl
  | succ k ih => exact ih

/-- What is left out at the end are zeros. -/
theorem trimZeros_append {c : Char} (nonzero : c ≠ '0') (rest : List Char) :
    ∃ k, c :: rest = Decimal.trimZeros (c :: rest) ++ List.replicate k '0' := by
  obtain ⟨chars, reversed⟩ : ∃ chars, chars = (c :: rest).reverse := ⟨_, rfl⟩
  have zeros : chars.takeWhile (· = '0') = List.replicate (chars.takeWhile (· = '0')).length '0' :=
    List.eq_replicate_of_mem fun d member => by simpa using List.mem_takeWhile_imp member
  have kept : Decimal.trimZeros (c :: rest) = (chars.dropWhile (· = '0')).reverse := by
    rw [Decimal.trimZeros, ← reversed]
    split
    · rename_i none
      have all := List.dropWhile_eq_nil_iff.1 none c (by simp [reversed])
      exact absurd (of_decide_eq_true all) nonzero
    · rfl
  refine ⟨(chars.takeWhile (· = '0')).length, ?_⟩
  calc c :: rest = chars.reverse := by rw [reversed, List.reverse_reverse]
    _ = (chars.dropWhile (· = '0')).reverse ++ (chars.takeWhile (· = '0')).reverse := by
        rw [← List.reverse_append, List.takeWhile_append_dropWhile]
    _ = _ := by rw [kept, zeros, List.reverse_replicate, List.length_replicate]

/-- The written digits of a decimal number, with its point behind so many of them, are that
number. -/
theorem toBinary_digitsAndPoint {x : Decimal} (nonzero : x.digits ≠ 0) (negative : Bool) :
    (⟨digitsNat x.digitsAndPoint.1, x.digitsAndPoint.2 - x.digitsAndPoint.1.length⟩ :
      Decimal).toBinary negative = x.toBinary negative := by
  obtain ⟨c, rest, written, head⟩ := Text.toDigits_head (Nat.pos_of_ne_zero nonzero)
  obtain ⟨k, split⟩ := trimZeros_append head rest
  rw [← written] at split
  set kept := Decimal.trimZeros (Nat.toDigits 10 x.digits) with trimmed
  have number : x.digits = digitsNat kept * 10 ^ k := by
    rw [← digitsNat_append_zeros, ← split, digitsNat_toDigits]
  have length : (Nat.toDigits 10 x.digits).length = kept.length + k := by
    rw [split, List.length_append, List.length_replicate]
  have place : x.exponent = x.digitsAndPoint.2 - kept.length - k := by
    simp only [Decimal.digitsAndPoint, length]
    omega
  have same : x = ⟨digitsNat kept * 10 ^ k, x.digitsAndPoint.2 - kept.length - k⟩ := by
    rw [← number, ← place]
  calc (⟨digitsNat kept, x.digitsAndPoint.2 - kept.length⟩ : Decimal).toBinary negative
      = (⟨digitsNat kept * 10 ^ k, x.digitsAndPoint.2 - kept.length - k⟩ :
          Decimal).toBinary negative := (Decimal.toBinary_mul_pow _ _ _ _).symm
    _ = x.toBinary negative := by rw [← same]

end LogAlert.Json

namespace LogAlert.Binary64

open Json

/-- Wherever the point is written, the number is the same. -/
theorem value_spellingOf {ds : List Char} (nonempty : ds ≠ []) (point : Int) (negative : Bool) :
    (spellingOf ds point).value negative =
      (⟨digitsNat ds, point - ds.length⟩ : Decimal).toBinary negative := by
  have positive : 0 < ds.length := List.length_pos_iff.2 nonempty
  unfold spellingOf
  split
  · -- behind the first digit, with an exponent
    have place : point - 1 - ((ds.drop 1).length : Int) = point - ds.length := by
      rw [List.length_drop]
      omega
    simp only [Spelling.value, List.take_append_drop, Option.getD_some, place]
  split
  · -- in front of all digits
    have zeros : '0' :: (List.replicate point.natAbs '0' ++ ds) =
        List.replicate (point.natAbs + 1) '0' ++ ds := rfl
    have place : (0 : Int) - ((List.replicate point.natAbs '0' ++ ds).length : Int) =
        point - ds.length := by
      rw [List.length_append, List.length_replicate]
      omega
    simp only [Spelling.value, List.cons_append, List.nil_append, zeros, digitsNat_zeros_append,
      Option.getD_none, place]
  split
  · -- behind all digits
    rename_i within
    set more := point.toNat - ds.length with rest
    have zeros : ds ++ List.replicate more '0' ++ ['0'] = ds ++ List.replicate (more + 1) '0' := by
      rw [List.append_assoc, List.replicate_succ']
    have place : (0 : Int) - (['0'].length : Int) = point - ds.length - (more + 1 : Nat) := by
      rw [List.length_singleton]
      omega
    simp only [Spelling.value, zeros, digitsNat_append_zeros, Option.getD_none, place]
    exact Decimal.toBinary_mul_pow _ _ _ _
  · -- between the digits
    have place : (0 : Int) - ((ds.drop point.toNat).length : Int) = point - ds.length := by
      rw [List.length_drop]
      omega
    simp only [Spelling.value, List.take_append_drop, Option.getD_none, place]

/-- **A value is read back from its text.** -/
theorem reread_of_canonical {x : Binary64} (canonical : x.Canonical) : x.reread = x := by
  cases x with
  | nan => rfl
  | infinite negative => rfl
  | finite negative m e =>
      rw [reread, spelling]
      split
      · rename_i zero
        have least : e = -1074 := canonical.full.resolve_left (by omega)
        rw [zero, least]
        rfl
      · rename_i nonzero
        have digits := digits_shortest_ne_zero nonzero e
        obtain ⟨c, rest, written, -⟩ := digitsAndPoint_fst digits
        have nonempty : (Decimal.shortest m e).digitsAndPoint.1 ≠ [] := by
          rw [written]
          exact List.cons_ne_nil _ _
        exact (value_spellingOf nonempty _ negative).trans
          ((toBinary_digitsAndPoint digits negative).trans
            (Decimal.toBinary_shortest canonical nonzero negative))

end LogAlert.Binary64
