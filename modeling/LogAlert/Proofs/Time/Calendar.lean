/-
# LogAlert.Proofs.Time.Calendar -- numbered days are days of the calendar

`Date.ofDayNumber` counts in eras of 400 years that begin in March.  A day of an era lies in one of
four centuries, in one of 25 spans of four years there, and in one of four years there (`EraDay`);
the quotients that the count is made of are computed from this (`EraDay.year_eq`), and month and day
from the day of the year alone (`Date.ofMarchYear`).

Main statement: `Date.valid_ofDayNumber`.  A number in the years 1 to 9999 yields a day that exists.
-/
import LogAlert.Time.DateTime
import Mathlib.Tactic.Common
import Mathlib.Tactic.IntervalCases

set_option autoImplicit false

namespace LogAlert.Time

/-! ## Days of an era -/

/-- The day of an era is the day `k`, counted from zero, of the year `r` of the span `q` of four
years of the century `c`.  Only the last year of a span can have a day 365, and in the last span
only that of the last century. -/
structure EraDay (dayOfEra c q r k : Int) : Prop where
  centuries : 0 ≤ c ∧ c ≤ 3
  spans : 0 ≤ q ∧ q ≤ 24
  years : 0 ≤ r ∧ r ≤ 3
  days : 0 ≤ k ∧ k ≤ 365
  leap : k = 365 → r = 3 ∧ (q < 24 ∨ c = 3)
  sum : dayOfEra = 36524 * c + 1461 * q + 365 * r + k

variable {dayOfEra c q r k : Int}

theorem exists_eraDay (least : 0 ≤ dayOfEra) (most : dayOfEra ≤ 146096) :
    ∃ c q r k, EraDay dayOfEra c q r k := by
  -- the last day of the era and the last day of a span would open a century or a year of their own
  obtain ⟨c, century⟩ : ∃ c, c = if dayOfEra = 146096 then 3 else dayOfEra / 36524 := ⟨_, rfl⟩
  obtain ⟨n, ofCentury⟩ : ∃ n, n = dayOfEra - 36524 * c := ⟨_, rfl⟩
  obtain ⟨m, ofSpan⟩ : ∃ m, m = n % 1461 := ⟨_, rfl⟩
  obtain ⟨r, year⟩ : ∃ r, r = if m = 1460 then 3 else m / 365 := ⟨_, rfl⟩
  have bounds : 0 ≤ c ∧ c ≤ 3 ∧ 0 ≤ n ∧ n ≤ 36524 ∧ (n = 36524 → c = 3) := by
    split at century <;> omega
  refine ⟨c, n / 1461, r, m - 365 * r, ?_⟩
  split at year
  · constructor <;> omega
  · constructor <;> omega

/-- The year of the era as it is counted. -/
theorem EraDay.year_eq (day : EraDay dayOfEra c q r k) :
    (dayOfEra - dayOfEra / 1460 + dayOfEra / 36524 - dayOfEra / 146096) / 365 =
      100 * c + 4 * q + r := by
  obtain ⟨centuries, spans, years, days, leap, sum⟩ := day
  have ofSpans : dayOfEra / 1460 =
      25 * c + q + if 1460 ≤ 24 * c + q + 365 * r + k then 1 else 0 := by
    split <;> omega
  have ofCenturies : dayOfEra / 36524 = c + if k = 365 ∧ q = 24 then 1 else 0 := by
    split <;> omega
  have ofEras : dayOfEra / 146096 = if k = 365 ∧ q = 24 then 1 else 0 := by
    split <;> omega
  rw [ofSpans, ofCenturies, ofEras]
  split <;> split <;> omega

/-- The day of the year as it is counted. -/
theorem EraDay.day_eq (day : EraDay dayOfEra c q r k) :
    dayOfEra - (365 * (100 * c + 4 * q + r) + (100 * c + 4 * q + r) / 4 -
      (100 * c + 4 * q + r) / 100) = k := by
  obtain ⟨-, spans, years, -, -, sum⟩ := day
  have ofCenturies : (100 * c + 4 * q + r) / 100 = c := by omega
  have ofSpans : (100 * c + 4 * q + r) / 4 = 25 * c + q := by omega
  rw [ofCenturies, ofSpans]
  omega

/-! ## Dates that exist -/

theorem isLeap_iff {year : Int} :
    isLeap year = true ↔ year % 4 = 0 ∧ (year % 100 ≠ 0 ∨ year % 400 = 0) := by
  simp [isLeap]

theorem daysInMonth_le (year : Int) (month : Nat) : daysInMonth year month ≤ 31 := by
  unfold daysInMonth
  split
  · split <;> decide
  · split <;> decide

namespace Date

/-- The date is one of the calendar. -/
def Valid (date : Date) : Prop := make date.year date.month date.day = .ok date

theorem valid_iff {date : Date} :
    date.Valid ↔ (1 ≤ date.year ∧ date.year ≤ 9999) ∧ (1 ≤ date.month ∧ date.month ≤ 12) ∧
      1 ≤ date.day ∧ date.day ≤ daysInMonth date.year date.month := by
  rw [Valid, make]
  split
  · constructor
    · nofun
    · omega
  split
  · constructor
    · nofun
    · omega
  split
  · constructor
    · nofun
    · omega
  · simp only [true_iff]
    omega

/-- The date of a day, counted from zero, of a year that begins in March. -/
def ofMarchYear (year dayOfYear : Int) : Date :=
  let monthFromMarch := (5 * dayOfYear + 2) / 153
  let day := dayOfYear - (153 * monthFromMarch + 2) / 5 + 1
  let month := if monthFromMarch < 10 then monthFromMarch + 3 else monthFromMarch - 9
  ⟨if month ≤ 2 then year + 1 else year, month.toNat, day.toNat⟩

theorem le_daysInMonth_february {year : Int} {d : Nat} (most : d ≤ 29)
    (leap : d = 29 → isLeap year = true) : d ≤ daysInMonth year 2 := by
  rw [daysInMonth, if_pos rfl]
  split
  · exact most
  · rename_i common
    have other : d ≠ 29 := fun same => common (leap same)
    omega

/-- A year from March on has a day 365 if the next year is a leap year.  The bounds keep January and
February of the year 1 and leave out those of the year 10000. -/
theorem valid_ofMarchYear {year : Int} (days : 0 ≤ k ∧ k ≤ 365)
    (leap : k = 365 → isLeap (year + 1) = true) (first : 0 ≤ year ∧ (year = 0 → 306 ≤ k))
    (last : year ≤ 9999 ∧ (year = 9999 → k < 306)) : (ofMarchYear year k).Valid := by
  obtain ⟨m, month⟩ : ∃ m, m = (5 * k + 2) / 153 := ⟨_, rfl⟩
  have months : 0 ≤ m ∧ m ≤ 11 := by omega
  rw [valid_iff, ofMarchYear]
  simp only [← month]
  by_cases february : m = 11
  · subst february
    refine ⟨by omega, by omega, by omega, ?_⟩
    exact le_daysInMonth_february (by omega) fun longest => leap (by omega)
  · obtain ⟨march, february'⟩ := months
    interval_cases m <;> simp [daysInMonth] <;> omega

theorem ofDayNumber_eq {number era : Int} (eras : era = (number + 719468).fdiv 146097)
    (day : EraDay (number + 719468 - era * 146097) c q r k) :
    ofDayNumber number = ofMarchYear (100 * c + 4 * q + r + era * 400) k := by
  subst eras
  unfold ofDayNumber
  simp only [day.year_eq, day.day_eq]
  rfl

/-- **Numbered days exist**, as long as they are not before the year 1 or behind the year 9999. -/
theorem valid_ofDayNumber {number : Int} (first : -719162 ≤ number) (last : number ≤ 2932896) :
    (ofDayNumber number).Valid := by
  obtain ⟨era, eras⟩ : ∃ era, era = (number + 719468).fdiv 146097 := ⟨_, rfl⟩
  have quotient : era = (number + 719468) / 146097 :=
    eras.trans (Int.fdiv_eq_ediv_of_nonneg _ (by decide))
  obtain ⟨c, q, r, k, day⟩ :=
    exists_eraDay (show 0 ≤ number + 719468 - era * 146097 by omega) (by omega)
  rw [ofDayNumber_eq eras day]
  obtain ⟨centuries, spans, years, days, leap, sum⟩ := day
  refine valid_ofMarchYear days (fun longest => ?_) ⟨by omega, fun zero => by omega⟩
    ⟨by omega, fun most => by omega⟩
  obtain ⟨rfl, cycle⟩ := leap longest
  rw [isLeap_iff]
  omega

end Date

end LogAlert.Time
