/-
# LogAlert.Proofs.Time.Proper -- times whose parts are in their ranges

A `DateTime` is a record of numbers.  `DateTime.Proper` says that they are those of a time: the date
exists, the time of day is one, and the offset from universal time is known and is either zero or at
least a second and less than a day.  Whatever is made from a number (`proper_ofSeconds`,
`proper_ofStamp`), from a text (`Iso.proper_read`) or from a clock that shows a date
(`Instant.proper_dateTime`) is proper.
-/
import LogAlert.Proofs.Number.Rounding
import LogAlert.Proofs.Outcome
import LogAlert.Proofs.Time.Calendar
import LogAlert.Time.Iso
import LogAlert.Time.Stamp

set_option autoImplicit false

namespace LogAlert.Time

theorem second_eq : second = 1000000 := rfl

theorem day_eq : day = 86400000000 := rfl

/-- An offset of whole seconds and microseconds: none at all, or at least a second and less than a
day either way. -/
def ProperOffset (offset : Int) : Prop :=
  offset = 0 ∨ (1000000 ≤ offset.natAbs ∧ offset.natAbs < 86400000000)

/-- The numbers are those of a time with a known offset. -/
structure DateTime.Proper (t : DateTime) : Prop where
  date : t.date.Valid
  hour : t.hour ≤ 23
  minute : t.minute ≤ 59
  second : t.second ≤ 59
  micro : t.micro < 1000000
  offset : ∃ offset, t.offset = some offset ∧ ProperOffset offset

theorem Date.valid_of_make {year : Int} {month day : Nat} {date : Date}
    (made : make year month day = .ok date) : date.Valid := by
  have same : date = ⟨year, month, day⟩ := by
    unfold make at made
    split at made
    · cases made
    split at made
    · cases made
    split at made
    · cases made
    · exact (Except.ok.inj made).symm
  rw [Valid, same]
  rwa [same] at made

namespace DateTime

/-- What was checked when a time was made. -/
theorem make_eq_ok {year : Int} {month day hour minute second micro : Nat} {offset : Option Int}
    {t : DateTime} (made : make year month day hour minute second micro offset = .ok t) :
    t.date.Valid ∧ t.hour ≤ 23 ∧ t.minute ≤ 59 ∧ t.second ≤ 59 ∧ t.micro = micro ∧
      t.offset = offset := by
  obtain ⟨date, dated, made⟩ := bind_eq_ok.1 made
  split at made
  · cases made
  rename_i hours
  split at made
  · cases made
  rename_i minutes
  split at made
  · cases made
  rename_i seconds
  cases made
  exact ⟨Date.valid_of_make dated, Nat.not_lt.1 hours, Nat.not_lt.1 minutes, Nat.not_lt.1 seconds,
    rfl, rfl⟩

theorem proper_make {year : Int} {month day hour minute second micro : Nat} {offset : Int}
    {t : DateTime} (made : make year month day hour minute second micro (some offset) = .ok t)
    (small : micro < 1000000) (proper : ProperOffset offset) : t.Proper := by
  obtain ⟨date, hours, minutes, seconds, micros, known⟩ := make_eq_ok made
  exact ⟨date, hours, minutes, seconds, micros ▸ small, offset, known, proper⟩

end DateTime

/-! ## Clocks and numbers -/

/-- A clock that shows a date shows a time. -/
theorem Instant.proper_dateTime {now : Instant} (dated : now.hasDate = true) :
    now.dateTime.Proper := by
  have bounds : -62135596800000000 ≤ now.micros ∧ now.micros ≤ 253402300799999999 := by
    rw [hasDate, Bool.and_eq_true, decide_eq_true_eq, decide_eq_true_eq] at dated
    exact dated
  obtain ⟨days, whole⟩ : ∃ days, days = now.micros.fdiv day := ⟨_, rfl⟩
  obtain ⟨rest, remains⟩ : ∃ rest, rest = (now.micros - days * day).toNat := ⟨_, rfl⟩
  rw [day_eq] at remains
  have quotient : days = now.micros / 86400000000 :=
    whole.trans (Int.fdiv_eq_ediv_of_nonneg _ (by decide))
  have split : now.dateTime = ⟨Date.ofDayNumber days, rest / 1000000 / 3600,
      rest / 1000000 / 60 % 60, rest / 1000000 % 60, rest % 1000000, some 0⟩ := by
    rw [remains, whole]
    rfl
  have short : rest < 86400000000 := by omega
  rw [split]
  exact ⟨Date.valid_ofDayNumber (by omega) (by omega), by show _ / _ ≤ _; omega,
    by show _ % _ ≤ _; omega, by show _ % _ ≤ _; omega, by show _ % _ < _; omega, 0, rfl, .inl rfl⟩

theorem proper_ofSeconds {seconds : Int} {micro : Nat} {t : DateTime} (small : micro < 1000000)
    (made : ofSeconds seconds micro = .ok t) : t.Proper := by
  unfold ofSeconds at made
  split at made
  · cases made
  dsimp only at made
  split at made
  · cases made
  · exact DateTime.proper_make (mapError_eq_ok.1 made) small (.inl rfl)

/-- The value in which fractions of a second are counted. -/
theorem million_eq : million = .finite false 8589934592000000 (-33) := by decide +kernel

section

open Binary64

/-- The integer nearest to a value is at most one beyond its size. -/
theorem nearestInt_le {x : Binary64} {bound : Nat}
    (size : ∀ negative m e, x = .finite negative m e → quotient (magnitude m e) ≤ bound) :
    nearestInt x ≤ bound + 1 := by
  cases x with
  | nan =>
      show (0 : Int) ≤ bound + 1
      omega
  | infinite negative =>
      show (0 : Int) ≤ bound + 1
      omega
  | finite negative m e =>
      have near := roundHalfEven_le_quotient (magnitude m e).1 (magnitude_snd_pos m e)
      have small := size negative m e rfl
      have most : roundHalfEven (magnitude m e).1 (magnitude m e).2 ≤ bound + 1 := by
        have cast : (roundHalfEven (magnitude m e).1 (magnitude m e).2 : ℚ) ≤ bound + 1 := by
          linarith
        exact_mod_cast cast
      cases negative with
      | true =>
          simp only [nearestInt, ratio?, if_true, Int.natAbs_neg, Int.natAbs_natCast]
          split <;> omega
      | false =>
          simp only [nearestInt, ratio?, Bool.false_eq_true, if_false, Int.natAbs_natCast]
          split <;> omega

/-- The least unit in the last place is nothing next to a second. -/
theorem least_unit : (2 : ℚ) ^ (-1074 : Int) ≤ 1 / 2 ^ 52 := by
  rw [one_div, ← zpow_natCast, ← zpow_neg]
  exact zpow_le_zpow_right₀ one_le_two (by norm_num)

theorem mul_million_eq (negative : Bool) (m : Nat) (e : Int) :
    (finite negative m e).mul million =
      ofRatio (negative != false) ((magnitude m e).1 * 8589934592000000)
        ((magnitude m e).2 * 2 ^ 33) := by
  rw [million_eq]
  rfl

/-- The fraction of a second, counted in microseconds and rounded, is not much more than a
million. -/
theorem micros_le {num : Int} {den : Nat} (fraction : num.natAbs ≤ den) (positive : 0 < den) :
    nearestInt ((ofSignedRatio num den).mul million) ≤ 1000002 := by
  have size : ∀ negative m e, (ofSignedRatio num den).mul million = .finite negative m e →
      quotient (magnitude m e) ≤ (1000001 : Nat) := by
    intro negative m e product
    cases made : ofSignedRatio num den with
    | nan =>
        rw [made] at product
        cases product
    | infinite sign =>
        rw [made, million_eq] at product
        cases product
    | finite sign n f =>
        rw [made, mul_million_eq] at product
        have part : quotient (num.natAbs, den) ≤ 1 := by
          rw [quotient, div_le_one (by positivity)]
          exact_mod_cast fraction
        have one := quotient_magnitude_ofRatio_le positive made
        have two := quotient_magnitude_ofRatio_le
          (Nat.mul_pos (magnitude_snd_pos n f) (by positivity)) product
        have scale : quotient ((magnitude n f).1 * 8589934592000000, (magnitude n f).2 * 2 ^ 33) =
            quotient (magnitude n f) * 1000000 := by
          rw [quotient, quotient]
          push_cast
          rw [mul_div_mul_comm]
          norm_num
        have tiny := least_unit
        rw [scale] at two
        push_cast
        linarith
  exact nearestInt_le size

end

theorem fraction_lt (n : Int) {d : Nat} (positive : 0 < d) :
    (n - n.tdiv d * d).natAbs < d := by
  have rest : n - n.tdiv d * d = n.tmod d := by rw [Int.tmod_def, Int.mul_comm]
  rw [rest, Int.natAbs_tmod, Int.natAbs_natCast]
  exact Nat.mod_lt _ positive

/-- What is made from a number of seconds with a fraction is a time: the fraction, counted in
microseconds, is either one of a second or one of a neighbouring second. -/
theorem proper_ofStamp {x : Binary64} {t : DateTime} (made : ofStamp x = .ok t) : t.Proper := by
  cases x with
  | nan => cases made
  | infinite negative => cases made
  | finite negative m e =>
      have positive := Binary64.magnitude_snd_pos m e
      simp only [ofStamp, Binary64.ratio?] at made
      generalize (if negative = true then -((Binary64.magnitude m e).1 : Int)
        else (Binary64.magnitude m e).1) = n at made
      have bound := micros_le (Nat.le_of_lt (fraction_lt n positive)) positive
      generalize nearestInt ((Binary64.ofSignedRatio (n - n.tdiv (Binary64.magnitude m e).2 *
        (Binary64.magnitude m e).2) (Binary64.magnitude m e).2).mul million) = micros at made bound
      split at made
      · exact proper_ofSeconds (by omega) made
      split at made
      · exact proper_ofSeconds (by omega) made
      · exact proper_ofSeconds (by omega) made

/-! ## Texts -/

namespace Iso

theorem digit?_lt {byte : UInt8} {d : Nat} (digit : digit? byte = some d) : d < 10 := by
  unfold digit? at digit
  split at digit
  · rename_i bounds
    cases digit
    have most : byte.toNat ≤ 57 := bounds.2
    omega
  · cases digit

/-- A number of so many digits is below that power of ten. -/
theorem takeNumber?_lt {count value n : Nat} {bytes rest : Bytes}
    (taken : takeNumber? count value bytes = some (n, rest)) : n < (value + 1) * 10 ^ count := by
  induction count generalizing value bytes with
  | zero =>
      cases taken
      omega
  | succ count ih =>
      cases bytes with
      | nil => cases taken
      | cons byte bytes =>
          rw [takeNumber?] at taken
          cases digit : digit? byte with
          | none =>
              rw [digit] at taken
              cases taken
          | some d =>
              rw [digit] at taken
              have below := digit?_lt digit
              calc n < (10 * value + d + 1) * 10 ^ count := ih taken
                _ ≤ ((value + 1) * 10) * 10 ^ count := Nat.mul_le_mul_right _ (by omega)
                _ = (value + 1) * 10 ^ (count + 1) := by rw [Nat.pow_succ', Nat.mul_assoc]

theorem fraction?_lt {size micro : Nat} {bytes : Bytes} {more : Bool}
    (read : fraction? size bytes = some (micro, more)) : micro < 1000000 := by
  obtain ⟨⟨value, rest⟩, taken, read⟩ := Option.bind_eq_some_iff.1 read
  cases read
  have below := takeNumber?_lt taken
  have most : min size 6 ≤ 6 := Nat.min_le_right size 6
  calc value * Nat.pow 10 (6 - min size 6)
      < (0 + 1) * 10 ^ min size 6 * 10 ^ (6 - min size 6) :=
        Nat.mul_lt_mul_of_pos_right below (Nat.pow_pos (by decide))
    _ = 10 ^ 6 := by rw [Nat.zero_add, Nat.one_mul, ← Nat.pow_add, Nat.add_sub_cancel' most]

theorem parts?_lt {parts : Nat} {colons : Option Bool} {values found : List Nat} {size micro : Nat}
    {bytes : Bytes} {more : Bool}
    (read : parts? parts colons values size bytes = some (found, micro, more)) :
    micro < 1000000 := by
  induction parts generalizing colons values size bytes with
  | zero =>
      obtain ⟨⟨fraction, rest⟩, taken, read⟩ := Option.bind_eq_some_iff.1 read
      cases read
      exact fraction?_lt taken
  | succ parts ih =>
      obtain ⟨⟨value, rest⟩, taken, read⟩ := Option.bind_eq_some_iff.1 read
      dsimp only at read
      split at read
      · cases read
        decide
      split at read
      · exact ih read
      split at read
      · obtain ⟨⟨fraction, behind⟩, taken', read⟩ := Option.bind_eq_some_iff.1 read
        cases read
        exact fraction?_lt taken'
      split at read
      · cases read
      · exact ih read

theorem clock?_lt {size : Nat} {bytes : Bytes} {clock : Clock} {more : Bool}
    (read : clock? size bytes = some (clock, more)) : clock.micro < 1000000 := by
  obtain ⟨⟨values, micro, behind⟩, found, read⟩ := Option.bind_eq_some_iff.1 read
  cases read
  exact parts?_lt found

theorem proper_makeOffset {seconds micro : Nat} (small : micro < 1000000) {sign offset : Int}
    (signed : sign = 1 ∨ sign = -1)
    (made : makeOffset (sign * seconds, sign * micro) = .ok offset) : ProperOffset offset := by
  unfold makeOffset DateTime.checkOffset at made
  rw [second_eq, day_eq] at made
  split at made
  · cases made
    exact .inl rfl
  split at made
  · cases made
  · cases made
    refine .inr ?_
    rcases signed with rfl | rfl <;> omega

/-- What an offset is made of: seconds and microseconds of one sign. -/
theorem offset?_eq_some {bytes : Bytes} {parts : Int × Int} (read : offset? bytes = some parts) :
    ∃ (sign : Int) (seconds micro : Nat), (sign = 1 ∨ sign = -1) ∧ micro < 1000000 ∧
      parts = (sign * seconds, sign * micro) := by
  cases bytes with
  | nil => cases read
  | cons byte rest =>
      rw [offset?] at read
      split at read
      · split at read
        · cases read
        · cases read
          exact ⟨1, 0, 0, .inl rfl, by decide, rfl⟩
      · obtain ⟨⟨clock, more⟩, found, read⟩ := Option.bind_eq_some_iff.1 read
        dsimp only at read
        split at read
        · cases read
        · cases read
          refine ⟨if byte = code '-' then -1 else 1, _, clock.micro, ?_, clock?_lt found, rfl⟩
          split
          · exact .inr rfl
          · exact .inl rfl

theorem time?_spec {bytes : Bytes} {clock : Clock} {offset : Option (Int × Int)}
    (read : time? bytes = some (clock, offset)) :
    clock.micro < 1000000 ∧ ∀ parts ∈ offset, ∃ behind, offset? behind = some parts := by
  obtain ⟨⟨found, more⟩, clocked, read⟩ := Option.bind_eq_some_iff.1 read
  dsimp only at read
  split at read
  · split at read
    · cases read
    · cases read
      exact ⟨clock?_lt clocked, nofun⟩
  · obtain ⟨parts, behind, read⟩ := Option.bind_eq_some_iff.1 read
    cases read
    refine ⟨clock?_lt clocked, fun parts' same => ?_⟩
    cases same
    exact ⟨_, behind⟩

theorem parts_spec {text : String} {date : Int × Nat × Nat} {clock : Clock}
    {offset : Option (Int × Int)} (read : parts text = some (date, clock, offset)) :
    clock.micro < 1000000 ∧ ∀ parts ∈ offset, ∃ behind, offset? behind = some parts := by
  obtain ⟨size, -, read⟩ := Option.bind_eq_some_iff.1 read
  obtain ⟨found, -, read⟩ := Option.bind_eq_some_iff.1 read
  split at read
  · cases read
    exact ⟨by decide, nofun⟩
  · obtain ⟨⟨clock', offset'⟩, timed, read⟩ := Option.bind_eq_some_iff.1 read
    cases read
    exact time?_spec timed

/-- **What is read from a text is a time**, once an unknown offset is taken for none. -/
theorem proper_read {text : String} {t : DateTime} (found : read text = .ok t) :
    t.orUniversal.Proper := by
  unfold read at found
  split at found
  · cases found
  · rename_i year month day clock offset separated
    obtain ⟨small, behind⟩ := parts_spec separated
    obtain ⟨known, offsets, found⟩ := bind_eq_ok.1 found
    obtain ⟨date, hour, minute, second, micro, same⟩ :=
      DateTime.make_eq_ok (mapError_eq_ok.1 found)
    refine ⟨date, hour, minute, second, micro ▸ small, _, rfl, ?_⟩
    show ProperOffset (t.offset.getD 0)
    rw [same]
    cases offset with
    | none =>
        cases offsets
        exact .inl rfl
    | some parts =>
        obtain ⟨bytes, read⟩ := behind parts rfl
        obtain ⟨sign, seconds, micros, signed, small, rfl⟩ := offset?_eq_some read
        have made := mapError_eq_ok.1 offsets
        cases offset : makeOffset (sign * seconds, sign * micros) with
        | error e =>
            rw [Option.mapM_some, offset] at made
            cases made
        | ok o =>
            rw [Option.mapM_some, offset] at made
            cases made
            exact proper_makeOffset small signed offset

end Iso

end LogAlert.Time
