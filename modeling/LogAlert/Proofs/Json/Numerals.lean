/-
# LogAlert.Proofs.Json.Numerals -- JSON numbers are read back from their texts

A `Spelling` is a decimal number as it is written: the digits in front of the point, those behind
it, and an exponent.  A proper one is read as a whole, up to a character that could not continue it
(`unsigned?_chars`).  `Binary64.spelling` spells a finite value; its text is that of the spelling
(`finiteText_eq`), and the spelling is proper (`proper_spelling`).  Integers are read back as they
are; a value of floating point is read as `Binary64.reread`.
-/
import LogAlert.Json.Read
import LogAlert.Proofs.Text.Digit

set_option autoImplicit false

namespace LogAlert.Json

/-- The first of these characters, if any, does not continue a number. -/
def EndsNumber (rest : List Char) : Prop :=
  ∀ c more, rest = c :: more → c.isDigit = false ∧ c ≠ '.' ∧ c ≠ 'e' ∧ c ≠ 'E'

theorem EndsNumber.nil : EndsNumber [] := nofun

theorem EndsNumber.cons {c : Char} (ends : c.isDigit = false ∧ c ≠ '.' ∧ c ≠ 'e' ∧ c ≠ 'E')
    (more : List Char) : EndsNumber (c :: more) := by
  rintro _ _ same
  cases same
  exact ends

/-- The first of these characters, if any, is no digit. -/
def EndsDigits (rest : List Char) : Prop := ∀ c more, rest = c :: more → c.isDigit = false

theorem EndsNumber.digits {rest : List Char} (ends : EndsNumber rest) : EndsDigits rest :=
  fun c more same => (ends c more same).1

theorem EndsDigits.cons {c : Char} (ends : c.isDigit = false) (more : List Char) :
    EndsDigits (c :: more) := by
  rintro _ _ same
  cases same
  exact ends

theorem digits_append {ds rest : List Char} (all : ∀ c ∈ ds, c.isDigit = true)
    (ends : EndsDigits rest) : digits (ds ++ rest) = (ds, rest) := by
  rw [digits, List.takeWhile_append_of_pos all, List.dropWhile_append_of_pos all]
  cases rest with
  | nil => simp
  | cons c more =>
      have stop := ends c more rfl
      simp [stop]

/-- Digits in front of a number's point: a zero stands there only alone. -/
structure Leading (ds : List Char) : Prop where
  all : ∀ c ∈ ds, c.isDigit = true
  zero : ds = ['0'] ∨ ∃ c rest, ds = c :: rest ∧ c ≠ '0'

namespace Leading

theorem singleton_zero : Leading ['0'] :=
  ⟨fun c member => by rw [List.mem_singleton.1 member]; rfl, .inl rfl⟩

variable {ds : List Char}

theorem ne_nil (leading : Leading ds) : ds ≠ [] := by
  obtain rfl | ⟨c, rest, rfl, -⟩ := leading.zero <;> exact List.cons_ne_nil _ _

theorem of_toDigits (n : Nat) : Leading (Nat.toDigits 10 n) where
  all := Text.isDigit_of_mem_toDigits
  zero := by
    rcases Nat.eq_zero_or_pos n with rfl | positive
    · exact .inl (Nat.toDigits_zero 10)
    · exact .inr (Text.toDigits_head positive)

end Leading

/-- What is read, from the parts that the characters fall into. -/
theorem unsigned?_parts {limit : Option Nat} {chars ds behind places rest more : List Char}
    {power : Option Int} (leading : Leading ds) (whole : digits chars = (ds, behind))
    (point : fraction behind = (places, rest)) (raised : exponent rest = (power, more))
    (negative : Bool) :
    unsigned? limit negative chars =
      if places = [] ∧ power = none then
        if limit.any (· < ds.length) then none
        else some (.int (if negative then -(digitsNat ds : Int) else digitsNat ds), more)
      else
        some (.float ((⟨digitsNat (ds ++ places), power.getD 0 - places.length⟩ :
          Decimal).toBinary negative), more) := by
  obtain rfl | ⟨c, others, rfl, nonzero⟩ := leading.zero
  · simp [unsigned?, whole, point, raised]
  · simp [unsigned?, whole, point, raised, nonzero]

/-! ## Integers -/

theorem fraction_ends {rest : List Char} (ends : ∀ more, rest ≠ '.' :: more) :
    fraction rest = ([], rest) := by
  rw [fraction.eq_def]
  split
  · exact absurd rfl (ends _)
  · rfl

theorem exponent_ends {rest : List Char} (ends : EndsNumber rest) :
    exponent rest = (none, rest) := by
  cases rest with
  | nil => rfl
  | cons c more =>
      obtain ⟨-, -, lower, upper⟩ := ends c more rfl
      rw [exponent, if_neg (by simp [lower, upper])]

/-- Digits that nothing continues are an integer. -/
theorem unsigned?_digits {limit : Option Nat} {ds rest : List Char} (leading : Leading ds)
    (short : ∀ n ∈ limit, ds.length ≤ n) (ends : EndsNumber rest) (negative : Bool) :
    unsigned? limit negative (ds ++ rest) =
      some (.int (if negative then -(digitsNat ds : Int) else digitsNat ds), rest) := by
  have noPoint : ∀ more, rest ≠ '.' :: more := fun more same => (ends _ _ same).2.1 rfl
  have within : limit.any (· < ds.length) = false := by
    cases limit with
    | none => rfl
    | some n => simpa using short n rfl
  rw [unsigned?_parts leading (digits_append leading.all ends.digits) (fraction_ends noPoint)
    (exponent_ends ends), if_pos ⟨rfl, rfl⟩, within]
  rfl

/-- A number begins with its sign or a digit, and with no letter. -/
theorem number?_digit {c : Char} (digit : c.isDigit = true) (limit : Option Nat)
    (more : List Char) : number? limit (c :: more) = unsigned? limit false (c :: more) := by
  rw [number?.eq_def]
  split
  all_goals first
    | rfl
    | rename_i same
      cases same
      exact absurd digit (by decide)

theorem number?_minus {c : Char} (digit : c.isDigit = true) (limit : Option Nat)
    (more : List Char) : number? limit ('-' :: c :: more) = unsigned? limit true (c :: more) := by
  rw [number?.eq_def]
  split
  · rename_i same
    cases same
  · rename_i same
    cases same
  · rename_i same
    cases same
    exact absurd digit (by decide)
  · rename_i same
    cases same
    rfl
  · rename_i other
    exact absurd rfl (other _)

/-- Digits of a number with a sign in front, if there is one. -/
theorem number?_signed {ds : List Char} (leading : Leading ds) (limit : Option Nat)
    (negative : Bool) (rest : List Char) :
    number? limit ((if negative then ['-'] else []) ++ (ds ++ rest)) =
      unsigned? limit negative (ds ++ rest) := by
  cases ds with
  | nil => exact absurd rfl leading.ne_nil
  | cons c more =>
      have digit := leading.all c List.mem_cons_self
      cases negative with
      | false => exact number?_digit digit limit _
      | true => exact number?_minus digit limit _

theorem digitsNat_toDigits (n : Nat) : digitsNat (Nat.toDigits 10 n) = n := by
  rw [digitsNat, Text.ofDigits_eq_ofDigitChars, Nat.ofDigitChars_ten_toDigits]

theorem toList_intText (n : Int) :
    (Text.intText n).toList =
      (if n < 0 then ['-'] else []) ++ Nat.toDigits 10 n.natAbs := by
  cases n with
  | ofNat n => simp [Text.intText, Text.natText, Nat.toList_repr]
  | negSucc n => simp [Text.intText, Text.natText, Nat.toList_repr, Int.negSucc_lt_zero]

/-- An integer is read back from its text. -/
theorem number?_intText {limit : Option Nat} {n : Int} {rest : List Char}
    (short : ∀ most ∈ limit, Decimal.width n.natAbs ≤ most) (ends : EndsNumber rest) :
    number? limit ((Text.intText n).toList ++ rest) = some (.int n, rest) := by
  have leading := Leading.of_toDigits n.natAbs
  have signed := number?_signed leading limit (decide (n < 0)) rest
  rw [toList_intText, List.append_assoc]
  simp only [decide_eq_true_eq] at signed
  rw [signed, unsigned?_digits leading short ends, digitsNat_toDigits]
  have same : (if decide (n < 0) = true then -(n.natAbs : Int) else n.natAbs) = n := by
    by_cases negative : n < 0
    · simp only [negative, decide_true, if_true]
      omega
    · simp only [negative, decide_false, if_false, Bool.false_eq_true]
      omega
  rw [same]

/-! ## Numbers with a fraction or an exponent -/

/-- A decimal number as it is written. -/
structure Spelling where
  whole : List Char
  places : List Char
  power : Option Int

namespace Spelling

/-- The point and the digits behind it, if there are any. -/
def placesText : List Char → List Char
  | [] => []
  | ds => '.' :: ds

/-- The text of the number. -/
def chars (s : Spelling) : List Char :=
  s.whole ++ (placesText s.places ++ s.power.elim [] Binary64.exponentText)

/-- The value that the number is read as. -/
def value (s : Spelling) (negative : Bool) : Binary64 :=
  (⟨digitsNat (s.whole ++ s.places), s.power.getD 0 - s.places.length⟩ : Decimal).toBinary negative

/-- The number is written as numbers are, and not as an integer. -/
structure Proper (s : Spelling) : Prop where
  leading : Leading s.whole
  places : ∀ c ∈ s.places, c.isDigit = true
  fractional : s.places = [] → s.power ≠ none

theorem placesText_of_ne_nil {ds : List Char} (nonempty : ds ≠ []) :
    placesText ds = '.' :: ds := by
  cases ds with
  | nil => exact absurd rfl nonempty
  | cons d ds => rfl

end Spelling

theorem fraction_placesText {ds rest : List Char} (all : ∀ c ∈ ds, c.isDigit = true)
    (ends : EndsDigits rest) (noPoint : ∀ more, rest ≠ '.' :: more) :
    fraction (Spelling.placesText ds ++ rest) = (ds, rest) := by
  cases ds with
  | nil => exact fraction_ends noPoint
  | cons c more =>
      rw [Spelling.placesText, List.cons_append, fraction, digits_append all ends]
      exact List.cons_ne_nil _ _

/-- The digits of an exponent. -/
def powerDigits (e : Int) : List Char :=
  let digits := Nat.toDigits 10 e.natAbs
  if digits.length < 2 then '0' :: digits else digits

theorem exponentText_eq (e : Int) :
    Binary64.exponentText e = 'e' :: (if e < 0 then '-' else '+') :: powerDigits e := rfl

theorem isDigit_of_mem_powerDigits (e : Int) : ∀ c ∈ powerDigits e, c.isDigit = true := by
  intro c member
  have written := Text.isDigit_of_mem_toDigits (n := e.natAbs) c
  rw [powerDigits] at member
  split at member
  · rcases List.mem_cons.1 member with rfl | member
    · rfl
    · exact written member
  · exact written member

theorem digitsNat_powerDigits (e : Int) : digitsNat (powerDigits e) = e.natAbs := by
  have written := digitsNat_toDigits e.natAbs
  rw [powerDigits]
  split
  · exact written
  · exact written

theorem powerDigits_ne_nil (e : Int) : powerDigits e ≠ [] := by
  rw [powerDigits]
  split
  · exact List.cons_ne_nil _ _
  · exact Nat.toDigits_ne_nil

theorem exponent_exponentText (e : Int) {rest : List Char} (ends : EndsDigits rest) :
    exponent (Binary64.exponentText e ++ rest) = (some e, rest) := by
  have read := digits_append (isDigit_of_mem_powerDigits e) ends
  have sign : Text.splitSign ((if e < 0 then '-' else '+') :: (powerDigits e ++ rest)) =
      (decide (e < 0), powerDigits e ++ rest) := by
    by_cases negative : e < 0 <;> simp [negative, Text.splitSign]
  obtain ⟨d, ds, split⟩ := List.exists_cons_of_ne_nil (powerDigits_ne_nil e)
  have number : (if decide (e < 0) = true then -(digitsNat (powerDigits e) : Int)
      else digitsNat (powerDigits e)) = e := by
    rw [digitsNat_powerDigits]
    by_cases negative : e < 0
    · simp only [negative, decide_true, if_true]
      omega
    · simp only [negative, decide_false, Bool.false_eq_true, if_false]
      omega
  rw [exponentText_eq, List.cons_append, List.cons_append, exponent, if_pos (.inl rfl), sign]
  simp only [read]
  rw [split] at number ⊢
  simp only [number]

theorem exponent_power {power : Option Int} {rest : List Char} (ends : EndsNumber rest) :
    exponent (power.elim [] Binary64.exponentText ++ rest) = (power, rest) := by
  cases power with
  | none => exact exponent_ends ends
  | some e => exact exponent_exponentText e ends.digits

/-- Neither a point nor a digit stands where the exponent begins. -/
theorem power_head (power : Option Int) {rest : List Char} (ends : EndsNumber rest) (c : Char)
    (more : List Char) (same : power.elim [] Binary64.exponentText ++ rest = c :: more) :
    c.isDigit = false ∧ c ≠ '.' := by
  cases power with
  | none =>
      obtain ⟨digit, point, -⟩ := ends c more same
      exact ⟨digit, point⟩
  | some e =>
      rw [Option.elim_some, exponentText_eq, List.cons_append, List.cons.injEq] at same
      rw [← same.1]
      decide

/-- A proper spelling is read as a whole. -/
theorem unsigned?_chars (limit : Option Nat) {s : Spelling} {rest : List Char} (proper : s.Proper)
    (ends : EndsNumber rest) (negative : Bool) :
    unsigned? limit negative (s.chars ++ rest) = some (.float (s.value negative), rest) := by
  have power := power_head s.power ends
  have behindWhole : EndsDigits (Spelling.placesText s.places ++
      (s.power.elim [] Binary64.exponentText ++ rest)) := by
    cases s.places with
    | nil => exact fun c more same => (power c more same).1
    | cons d ds => exact .cons rfl _
  have whole := digits_append proper.leading.all behindWhole
  have places := fraction_placesText proper.places (fun c more same => (power c more same).1)
    fun more same => (power _ more same).2 rfl
  rw [Spelling.chars, List.append_assoc, List.append_assoc,
    unsigned?_parts proper.leading whole places (exponent_power ends),
    if_neg fun both => proper.fractional both.1 both.2]
  rfl

/-! ## Values of floating point -/

theorem dropWhile_concat {α : Type} {p : α → Bool} {x : α} (stop : p x = false) (xs : List α) :
    (xs ++ [x]).dropWhile p = xs.dropWhile p ++ [x] := by
  induction xs with
  | nil => simp [stop]
  | cons y xs ih =>
      cases skipped : p y
      · simp [skipped]
      · simp [skipped, ih]

/-- Only zeros at the end are left out. -/
theorem trimZeros_cons {c : Char} (nonzero : c ≠ '0') (rest : List Char) :
    ∃ kept, Decimal.trimZeros (c :: rest) = c :: kept ∧ kept ⊆ rest := by
  refine ⟨(rest.reverse.dropWhile (· = '0')).reverse, ?_, fun d member => ?_⟩
  · rw [Decimal.trimZeros, List.reverse_cons, dropWhile_concat (p := fun x => decide (x = '0'))
      (decide_eq_false nonzero)]
    split
    · rename_i empty
      exact absurd empty (by simp)
    · rw [List.reverse_append, List.reverse_singleton, List.singleton_append]
  · have kept := (List.dropWhile_suffix _).subset (List.mem_reverse.1 member)
    exact List.mem_reverse.1 kept

/-- The digits that a positive decimal number is written with. -/
theorem digitsAndPoint_fst {x : Decimal} (positive : x.digits ≠ 0) :
    ∃ c rest, x.digitsAndPoint.1 = c :: rest ∧ c ≠ '0' ∧ ∀ d ∈ c :: rest, d.isDigit = true := by
  obtain ⟨c, rest, written, nonzero⟩ := Text.toDigits_head (Nat.pos_of_ne_zero positive)
  obtain ⟨kept, trimmed, part⟩ := trimZeros_cons nonzero rest
  refine ⟨c, kept, ?_, nonzero, fun d member => ?_⟩
  · rw [Decimal.digitsAndPoint, written, trimmed]
  · have all := Text.isDigit_of_mem_toDigits (n := x.digits) d
    rw [written] at all
    exact all (List.cons_subset_cons c part member)

theorem digits_shortest_ne_zero {m : Nat} (positive : m ≠ 0) (e : Int) :
    (Decimal.shortest m e).digits ≠ 0 := by
  rw [Decimal.shortest, if_neg positive]
  cases found : (Decimal.candidates m e).find? fun x => x.toBinary false = .finite false m e with
  | none =>
      cases e with
      | ofNat k => exact Nat.mul_ne_zero positive (Nat.ne_of_gt (Nat.two_pow_pos k))
      | negSucc k =>
          exact Nat.mul_ne_zero positive (Nat.ne_of_gt (Nat.pow_pos (show 0 < 5 by decide)))
  | some x =>
      intro zero
      have reads := List.find?_some found
      rw [Option.getD_some] at zero
      simp only [Decimal.toBinary, zero, true_or, if_true, Binary64.zero, decide_eq_true_eq,
        Binary64.finite.injEq] at reads
      exact positive reads.2.1.symm

end LogAlert.Json

namespace LogAlert.Binary64

open Json

/-- How the digits of a positive value are written, with the point behind so many of them. -/
def spellingOf (digits : List Char) (point : Int) : Spelling :=
  if point ≤ -4 ∨ 16 < point then ⟨digits.take 1, digits.drop 1, some (point - 1)⟩
  else if point ≤ 0 then ⟨['0'], List.replicate point.natAbs '0' ++ digits, none⟩
  else if digits.length ≤ point.toNat then
    ⟨digits ++ List.replicate (point.toNat - digits.length) '0', ['0'], none⟩
  else ⟨digits.take point.toNat, digits.drop point.toNat, none⟩

/-- How a finite value is written. -/
def spelling (mantissa : Nat) (exponent : Int) : Spelling :=
  if mantissa = 0 then ⟨['0'], ['0'], none⟩
  else
    let (digits, point) := (Decimal.shortest mantissa exponent).digitsAndPoint
    spellingOf digits point

/-- The value that the text of a value is read as. -/
def reread : Binary64 → Binary64
  | .finite negative m e => (spelling m e).value negative
  | x => x

theorem proper_spellingOf {c : Char} {rest : List Char} (nonzero : c ≠ '0')
    (all : ∀ d ∈ c :: rest, d.isDigit = true) (point : Int) :
    (spellingOf (c :: rest) point).Proper := by
  have zeros (n : Nat) : ∀ d ∈ List.replicate n '0', d.isDigit = true := by
    intro d member
    rw [List.eq_of_mem_replicate member]
    rfl
  have leading {others : List Char} (digits : ∀ d ∈ c :: others, d.isDigit = true) :
      Leading (c :: others) := ⟨digits, .inr ⟨c, others, rfl, nonzero⟩⟩
  rw [spellingOf]
  split
  · exact ⟨leading fun d member => all d (by simp_all), fun d member => all d (by simp_all),
      fun _ => Option.some_ne_none _⟩
  split
  · refine ⟨.singleton_zero, fun d member => ?_, by simp⟩
    exact (List.mem_append.1 member).elim (zeros _ d) (all d)
  split
  · refine ⟨leading fun d member => ?_, Leading.singleton_zero.all, nofun⟩
    exact (List.mem_append.1 (List.cons_append ▸ member)).elim (all d) (zeros _ d)
  · rename_i large _ long
    obtain ⟨more, same⟩ : ∃ more, point.toNat = more + 1 := ⟨point.toNat - 1, by omega⟩
    refine ⟨?_, fun d member => all d (List.mem_of_mem_drop member), fun none => ?_⟩
    · rw [same, List.take_succ_cons]
      exact leading fun d member => all d
        (List.cons_subset_cons c (List.take_subset _ _) member)
    · exact absurd (List.drop_eq_nil_iff.1 none) long

theorem proper_spelling (m : Nat) (e : Int) : (spelling m e).Proper := by
  rw [spelling]
  split
  · exact ⟨.singleton_zero, Leading.singleton_zero.all, nofun⟩
  · rename_i positive
    obtain ⟨c, rest, written, nonzero, all⟩ :=
      digitsAndPoint_fst (digits_shortest_ne_zero positive e)
    simp only [written]
    exact proper_spellingOf nonzero all _

theorem finiteText_eq (negative : Bool) (m : Nat) (e : Int) :
    (finiteText negative m e).toList =
      (if negative then ['-'] else []) ++ (spelling m e).chars := by
  rw [finiteText, spelling]
  split
  · rw [String.toList_ofList]
    rfl
  · rename_i positive
    obtain ⟨c, rest, written, -⟩ := digitsAndPoint_fst (digits_shortest_ne_zero positive e)
    simp only [written, String.toList_ofList, spellingOf]
    generalize (Decimal.shortest m e).digitsAndPoint.2 = point
    congr 1
    by_cases scientific : point ≤ -4 ∨ 16 < point
    · simp only [if_pos scientific]
      cases rest <;> rfl
    by_cases below : point ≤ 0
    · simp only [if_neg scientific, if_pos below, Spelling.chars]
      rw [Spelling.placesText_of_ne_nil (List.append_ne_nil_of_right_ne_nil _ (List.cons_ne_nil _ _)),
        Option.elim_none, List.append_nil]
      rfl
    by_cases short : (c :: rest).length ≤ point.toNat
    · simp only [if_neg scientific, if_neg below, if_pos short]
      rfl
    · simp only [if_neg scientific, if_neg below, if_neg short, Spelling.chars]
      rw [Spelling.placesText_of_ne_nil (mt List.drop_eq_nil_iff.1 short), Option.elim_none,
        List.append_nil]

end LogAlert.Binary64

namespace LogAlert.Json

/-- A value of floating point is read from its text, though perhaps as another value. -/
theorem number?_text (limit : Option Nat) (x : Binary64) {rest : List Char}
    (ends : EndsNumber rest) :
    number? limit ((x.text names).toList ++ rest) = some (.float x.reread, rest) := by
  cases x with
  | nan => rfl
  | infinite negative => cases negative <;> rfl
  | finite negative m e =>
      have proper := Binary64.proper_spelling m e
      have signed := number?_signed proper.leading limit negative
        (Spelling.placesText (Binary64.spelling m e).places ++
          (Binary64.spelling m e).power.elim [] Binary64.exponentText ++ rest)
      have read := unsigned?_chars limit proper ends negative
      rw [Spelling.chars, List.append_assoc] at read
      rw [read] at signed
      rw [Binary64.text, Binary64.finiteText_eq, Spelling.chars, List.append_assoc,
        List.append_assoc, signed]
      rfl

end LogAlert.Json
