/-
# LogAlert.Proofs.Time.Printed -- a printed time is read back

`DateTime.text` prints a time in one of the many forms that `Iso.read` reads.  The reader works on
bytes; a number that is printed with a fixed width is a `Numeral` there, from which the reader takes
the number and the bytes behind it.  The places by which the reader tells the forms apart are then
known, so date (`date?_date`), time of day (`clock?_form`) and offset (`offset?_signByte`) are read
one by one.

Main statement: `read_text`.  A proper time is read from its text as this very time.  The text has
no blanks in it (`isTimeChar_text`), so that nothing is lost where texts are trimmed first.
-/
import LogAlert.Proofs.Text.Digit
import LogAlert.Proofs.Time.Proper

set_option autoImplicit false

namespace LogAlert.Time

/-! ## Bytes -/

namespace Iso

/-- The bytes of a text. -/
def bytesOf (text : String) : Bytes := text.toUTF8.toList

theorem toList_loop_eq (array : ByteArray) (i : Nat) (done : List UInt8) :
    ByteArray.toList.loop array i done = done.reverse ++ array.data.toList.drop i := by
  induction i, done using ByteArray.toList.loop.induct array with
  | case1 i done inside ih =>
      have inList : i < array.data.toList.length := by simpa using inside
      have byte : array.get! i = array.data.toList[i] := by
        rw [Array.getElem_toList]
        exact getElem!_pos array.data i inside
      rw [ByteArray.toList.loop, if_pos inside, ih, List.drop_eq_getElem_cons inList, byte]
      simp
  | case2 i done outside =>
      have ended : array.data.toList.length ≤ i := by simpa using outside
      rw [ByteArray.toList.loop, if_neg outside, List.drop_eq_nil_of_le ended, List.append_nil]

theorem bytesOf_eq (text : String) : bytesOf text = text.toUTF8.data.toList := by
  rw [bytesOf, ByteArray.toList, toList_loop_eq]
  rfl

theorem bytesOf_append (s t : String) : bytesOf (s ++ t) = bytesOf s ++ bytesOf t := by
  rw [bytesOf_eq, bytesOf_eq, bytesOf_eq]
  exact ByteArray.toList_data_append

theorem bytesOf_ofList (chars : List Char) :
    bytesOf (String.ofList chars) = chars.flatMap String.utf8EncodeChar := by
  rw [bytesOf_eq]
  exact List.toList_data_toByteArray

/-! ## Numerals -/

/-- A digit is one byte. -/
theorem utf8_digit {c : Char} (digit : c.isDigit = true) :
    String.utf8EncodeChar c = [code c] ∧ digit? (code c) = some (c.toNat - 48) := by
  have each : ∀ n < 58, 48 ≤ n → String.utf8EncodeChar (.ofNat n) = [code (.ofNat n)] ∧
      digit? (code (.ofNat n)) = some ((Char.ofNat n).toNat - 48) := by decide
  have bounds := Text.bounds_of_isDigit digit
  rw [← Char.ofNat_toNat c]
  exact each c.toNat (by omega) bounds.1

/-- The bytes are a number that is written with so many digits. -/
structure Numeral (width n : Nat) (bytes : Bytes) : Prop where
  length : bytes.length = width
  digits : ∀ byte ∈ bytes, isDigitByte byte = true
  taken (rest : Bytes) : takeNumber? width 0 (bytes ++ rest) = some (n, rest)

theorem utf8_digits {chars : List Char} (digits : ∀ c ∈ chars, c.isDigit = true) :
    chars.flatMap String.utf8EncodeChar = chars.map code := by
  rw [List.map_eq_flatMap]
  exact List.flatMap_congr fun c member => (utf8_digit (digits c member)).1

theorem takeNumber?_digits {chars : List Char} (digits : ∀ c ∈ chars, c.isDigit = true)
    (value : Nat) (rest : Bytes) :
    takeNumber? chars.length value (chars.map code ++ rest) =
      some (Nat.ofDigitChars 10 chars value, rest) := by
  induction chars generalizing value with
  | nil => rfl
  | cons c chars ih =>
      rw [List.map_cons, List.length_cons, List.cons_append, takeNumber?,
        (utf8_digit (digits c List.mem_cons_self)).2, Nat.ofDigitChars_cons]
      exact ih (fun d member => digits d (List.mem_cons_of_mem c member)) _

/-- A number that fits is padded to a numeral of the width. -/
theorem numeral_padded {width n : Nat} (positive : 0 < width) (fits : n < 10 ^ width) :
    Numeral width n (bytesOf (padded width n)) := by
  have short := (Nat.length_toDigits_le_iff (by decide) positive).2 fits
  have written := isDigit_padded width n
  rw [padded, String.toList_ofList] at written
  rw [padded, bytesOf_ofList]
  generalize same : List.replicate (width - (Nat.toDigits 10 n).length) '0' ++ Nat.toDigits 10 n =
    chars at written
  have length : chars.length = width := by
    rw [← same, List.length_append, List.length_replicate]
    omega
  have number : Nat.ofDigitChars 10 chars 0 = n := by
    rw [← same, Nat.ofDigitChars_append, Nat.ofDigitChars_replicate_zero, Nat.mul_zero,
      Nat.ofDigitChars_ten_toDigits]
  rw [utf8_digits written]
  refine ⟨by rw [List.length_map, length], fun byte member => ?_, fun rest => ?_⟩
  · obtain ⟨c, inChars, rfl⟩ := List.mem_map.1 member
    rw [isDigitByte, (utf8_digit (written c inChars)).2]
    rfl
  · rw [← number, ← length]
    exact takeNumber?_digits written 0 rest

namespace Numeral

variable {n : Nat} {bytes : Bytes}

theorem two (numeral : Numeral 2 n bytes) : ∃ a b, bytes = [a, b] ∧ isDigitByte a = true :=
  match bytes, numeral with
  | [a, b], numeral => ⟨a, b, rfl, numeral.digits a List.mem_cons_self⟩

theorem four (numeral : Numeral 4 n bytes) : ∃ a b c d, bytes = [a, b, c, d] :=
  match bytes, numeral with
  | [a, b, c, d], _ => ⟨a, b, c, d, rfl⟩

end Numeral

/-! ## Dates -/

theorem digit_ne_week {byte : UInt8} (digit : isDigitByte byte = true) : byte ≠ code 'W' := by
  rintro rfl
  cases digit

/-- The bytes of a date. -/
def dateBytes (year month day : Bytes) : Bytes :=
  year ++ code '-' :: (month ++ code '-' :: day)

section

variable {y m d : Nat} {year month day : Bytes}

theorem dateLength?_date (aYear : Numeral 4 y year) (aMonth : Numeral 2 m month)
    (aDay : Numeral 2 d day) (rest : Bytes) :
    dateLength? (dateBytes year month day ++ rest) = some 10 := by
  obtain ⟨y₁, y₂, y₃, y₄, rfl⟩ := aYear.four
  obtain ⟨m₁, m₂, rfl, digit⟩ := aMonth.two
  obtain ⟨d₁, d₂, rfl, -⟩ := aDay.two
  have notWeek := digit_ne_week digit
  simp [dateLength?, dateBytes, byteAt, notWeek]

theorem length_dateBytes (aYear : Numeral 4 y year) (aMonth : Numeral 2 m month)
    (aDay : Numeral 2 d day) : (dateBytes year month day).length = 10 := by
  simp [dateBytes, aYear.length, aMonth.length, aDay.length]

theorem date?_date (aYear : Numeral 4 y year) (aMonth : Numeral 2 m month)
    (aDay : Numeral 2 d day) : date? (dateBytes year month day) = some ((y : Int), m, d) := by
  have monthTaken := aMonth.taken (code '-' :: day)
  have dayTaken := aDay.taken []
  obtain ⟨m₁, m₂, rfl, digit⟩ := aMonth.two
  have notWeek := digit_ne_week digit
  rw [List.append_nil] at dayTaken
  have isHyphen : byteAt (code '-' :: ([m₁, m₂] ++ code '-' :: day)) 0 = code '-' := rfl
  have noWeek : byteAt ([m₁, m₂] ++ code '-' :: day) 0 ≠ code 'W' := notWeek
  rw [date?, dateBytes, aYear.taken]
  simp only [Option.bind_eq_bind, Option.bind_some, isHyphen, decide_true, if_true, List.drop_one,
    List.tail_cons, noWeek, if_false, monthTaken, skipHyphen?, dayTaken, List.isEmpty_nil]
  rfl

end

/-! ## Times of day -/

/-- The forms in which times of day are printed. -/
inductive ClockForm : Clock → Bytes → Prop where
  | minutes {h m : Nat} {hour minute : Bytes} (aHour : Numeral 2 h hour)
      (aMinute : Numeral 2 m minute) : ClockForm ⟨h, m, 0, 0⟩ (hour ++ code ':' :: minute)
  | seconds {h m s : Nat} {hour minute second : Bytes} (aHour : Numeral 2 h hour)
      (aMinute : Numeral 2 m minute) (aSecond : Numeral 2 s second) :
      ClockForm ⟨h, m, s, 0⟩ (hour ++ code ':' :: (minute ++ code ':' :: second))
  | micros {h m s f : Nat} {hour minute second micro : Bytes} (aHour : Numeral 2 h hour)
      (aMinute : Numeral 2 m minute) (aSecond : Numeral 2 s second) (aMicro : Numeral 6 f micro) :
      ClockForm ⟨h, m, s, f⟩
        (hour ++ code ':' :: (minute ++ code ':' :: (second ++ code '.' :: micro)))

section

variable {v : Nat} {bytes rest : Bytes} {values : List Nat} {size parts : Nat} {colons : Option Bool}

theorem parts?_colon (number : Numeral 2 v bytes) (long : 3 < size) (same : colons.getD true = true) :
    parts? (parts + 1) colons values size (bytes ++ code ':' :: rest) =
      parts? parts (some true) (values ++ [v]) (size - 3) rest := by
  have isColon : byteAt (code ':' :: rest) 0 = code ':' := rfl
  have more : ¬size ≤ 3 := by omega
  rw [parts?, number.taken]
  cases colons with
  | none => simp [isColon, more]
  | some expected =>
      cases same
      simp [isColon, more]

theorem parts?_last (number : Numeral 2 v bytes) (short : size ≤ 3) :
    parts? (parts + 1) colons values size (bytes ++ rest) =
      some (values ++ [v], 0, decide (byteAt rest 0 ≠ 0)) := by
  rw [parts?, number.taken]
  simp [short]

theorem fraction?_micro {micro : Bytes} (number : Numeral 6 v micro)
    (ends : isDigitByte (byteAt rest 0) = false) :
    fraction? 6 (micro ++ rest) = some (v, decide (byteAt rest 0 ≠ 0)) := by
  have behind : rest.dropWhile isDigitByte = rest := by
    cases rest with
    | nil => rfl
    | cons byte rest => exact List.dropWhile_cons_of_neg (Bool.eq_false_iff.1 ends)
  rw [fraction?]
  simp [number.taken, behind]

theorem parts?_micros {micro : Bytes} {f : Nat} (number : Numeral 2 v bytes)
    (fraction : Numeral 6 f micro) (ends : isDigitByte (byteAt rest 0) = false) :
    parts? (parts + 1) (some true) values 9 (bytes ++ code '.' :: (micro ++ rest)) =
      some (values ++ [v], f, decide (byteAt rest 0 ≠ 0)) := by
  have isPoint : byteAt (code '.' :: (micro ++ rest)) 0 = code '.' := rfl
  have differs : code '.' ≠ code ':' := by decide
  rw [parts?, number.taken]
  simp [isPoint, differs, fraction?_micro fraction ends]

end

/-- **A printed time of day is read back**, together with whether anything stands behind it. -/
theorem clock?_form {clock : Clock} {bytes rest : Bytes} (form : ClockForm clock bytes)
    (ends : isDigitByte (byteAt rest 0) = false) :
    clock? bytes.length (bytes ++ rest) = some (clock, decide (byteAt rest 0 ≠ 0)) := by
  cases form with
  | minutes aHour aMinute =>
      simp only [clock?, List.append_assoc, List.cons_append, List.length_append,
        List.length_cons, aHour.length, aMinute.length]
      rw [parts?_colon aHour (by decide) rfl, parts?_last aMinute (by decide)]
      rfl
  | seconds aHour aMinute aSecond =>
      simp only [clock?, List.append_assoc, List.cons_append, List.length_append,
        List.length_cons, aHour.length, aMinute.length, aSecond.length]
      rw [parts?_colon aHour (by decide) rfl, parts?_colon aMinute (by decide) rfl,
        parts?_last aSecond (by decide)]
      rfl
  | micros aHour aMinute aSecond aMicro =>
      simp only [clock?, List.append_assoc, List.cons_append, List.length_append,
        List.length_cons, aHour.length, aMinute.length, aSecond.length, aMicro.length]
      rw [parts?_colon aHour (by decide) rfl, parts?_colon aMinute (by decide) rfl,
        parts?_micros aSecond aMicro ends]
      rfl

/-! ## Offsets -/

theorem digit_not_startsOffset {byte : UInt8} (digit : isDigitByte byte = true) :
    startsOffset byte = false := by
  rw [Bool.eq_false_iff]
  intro starts
  rw [startsOffset, Bool.or_eq_true, Bool.or_eq_true, decide_eq_true_eq, decide_eq_true_eq,
    decide_eq_true_eq] at starts
  rcases starts with (rfl | rfl) | rfl <;> cases digit

/-- A time of day has no byte in it with which an offset begins. -/
theorem ClockForm.not_startsOffset {clock : Clock} {bytes : Bytes} (form : ClockForm clock bytes) :
    ∀ byte ∈ bytes, startsOffset byte = false := by
  have colon : startsOffset (code ':') = false := rfl
  have point : startsOffset (code '.') = false := rfl
  have numeral {width n : Nat} {bytes : Bytes} (number : Numeral width n bytes) :
      ∀ byte ∈ bytes, startsOffset byte = false :=
    fun byte member => digit_not_startsOffset (number.digits byte member)
  cases form with
  | minutes aHour aMinute =>
      simp only [List.forall_mem_append, List.forall_mem_cons]
      exact ⟨numeral aHour, colon, numeral aMinute⟩
  | seconds aHour aMinute aSecond =>
      simp only [List.forall_mem_append, List.forall_mem_cons]
      exact ⟨numeral aHour, colon, numeral aMinute, colon, numeral aSecond⟩
  | micros aHour aMinute aSecond aMicro =>
      simp only [List.forall_mem_append, List.forall_mem_cons]
      exact ⟨numeral aHour, colon, numeral aMinute, colon, numeral aSecond, point, numeral aMicro⟩

/-- The sign of an offset. -/
def signOf (offset : Int) : Int := if offset < 0 then -1 else 1

/-- The byte that is printed for the sign of an offset. -/
def signByte (offset : Int) : UInt8 := if offset < 0 then code '-' else code '+'

theorem sign_cases (offset : Int) :
    (offset < 0 ∧ signOf offset = -1 ∧ signByte offset = code '-') ∨
      (0 ≤ offset ∧ signOf offset = 1 ∧ signByte offset = code '+') := by
  by_cases negative : offset < 0
  · exact .inl ⟨negative, if_pos negative, if_pos negative⟩
  · exact .inr ⟨not_lt.1 negative, if_neg negative, if_neg negative⟩

/-- The clock that shows the size of an offset. -/
def offsetClock (offset : Int) : Clock :=
  let seconds := offset.natAbs / 1000000
  ⟨seconds / 3600, seconds / 60 % 60, seconds % 60, offset.natAbs % 1000000⟩

theorem makeOffset_signed {offset : Int} (proper : ProperOffset offset) :
    makeOffset (signOf offset * (offset.natAbs / 1000000 : Nat),
      signOf offset * (offset.natAbs % 1000000 : Nat)) = .ok offset := by
  unfold makeOffset DateTime.checkOffset
  rw [second_eq, day_eq]
  unfold ProperOffset at proper
  rcases sign_cases offset with ⟨negative, sign, -⟩ | ⟨positive, sign, -⟩
  all_goals
    simp only [sign]
    split
    · exact congrArg Except.ok (by omega)
    split
    · omega
    · exact congrArg Except.ok (by omega)

/-- **A printed offset is read back.** -/
theorem offset?_signByte {offset : Int} (proper : ProperOffset offset) {bytes : Bytes}
    (form : ClockForm (offsetClock offset) bytes) :
    ∃ parts, offset? (signByte offset :: bytes) = some parts ∧ makeOffset parts = .ok offset := by
  have read : clock? bytes.length (bytes ++ []) = _ := clock?_form form rfl
  have total : (offsetClock offset).hour * 3600 + (offsetClock offset).minute * 60 +
      (offsetClock offset).second = offset.natAbs / 1000000 := by
    show offset.natAbs / 1000000 / 3600 * 3600 + offset.natAbs / 1000000 / 60 % 60 * 60 +
      offset.natAbs / 1000000 % 60 = _
    omega
  have sign : signByte offset ≠ code 'Z' ∧
      (if signByte offset = code '-' then (-1 : Int) else 1) = signOf offset := by
    rcases sign_cases offset with ⟨-, sign, byte⟩ | ⟨-, sign, byte⟩ <;>
      rw [sign, byte] <;> decide
  refine ⟨_, ?_, makeOffset_signed proper⟩
  rw [List.append_nil] at read
  rw [offset?, if_neg sign.1, read, Option.bind_eq_bind, Option.bind_some, sign.2, ← total]
  rfl

/-- **A printed time of day with an offset is read back.** -/
theorem time?_form {clock : Clock} {bytes behind : Bytes} {offset : Int}
    (form : ClockForm clock bytes) (proper : ProperOffset offset)
    (shows : ClockForm (offsetClock offset) behind) :
    ∃ parts, time? (bytes ++ signByte offset :: behind) = some (clock, some parts) ∧
      makeOffset parts = .ok offset := by
  obtain ⟨parts, read, made⟩ := offset?_signByte proper shows
  have sign : startsOffset (signByte offset) = true ∧ isDigitByte (signByte offset) = false := by
    rcases sign_cases offset with ⟨-, -, byte⟩ | ⟨-, -, byte⟩ <;> rw [byte] <;> decide
  have before : (bytes ++ signByte offset :: behind).takeWhile (fun byte => !startsOffset byte) =
      bytes := by
    rw [List.takeWhile_append_of_pos fun byte member => by rw [form.not_startsOffset byte member]; rfl,
      List.takeWhile_cons_of_neg (by rw [sign.1]; decide), List.append_nil]
  refine ⟨parts, ?_, made⟩
  have clocked : clock? bytes.length (bytes ++ signByte offset :: behind) = _ :=
    clock?_form form sign.2
  rw [time?, before, clocked, Option.bind_eq_bind, Option.bind_some]
  simp only [List.drop_left, read]
  rfl

/-! ## Texts -/

theorem bytesOf_mark : bytesOf "-" = [code '-'] ∧ bytesOf "+" = [code '+'] ∧
    bytesOf ":" = [code ':'] ∧ bytesOf "." = [code '.'] ∧ bytesOf "T" = [code 'T'] := by
  simp only [bytesOf_eq]
  decide

theorem numeral_two {n : Nat} (fits : n < 100) : Numeral 2 n (bytesOf (padded 2 n)) :=
  numeral_padded (by decide) fits

/-- A time of day is printed in one of the forms. -/
theorem clockForm_text (clock : Clock) (hour : clock.hour < 100) (minute : clock.minute < 100)
    (second : clock.second < 100) (micro : clock.micro < 1000000) :
    ClockForm clock (bytesOf (padded 2 clock.hour ++ ":" ++ padded 2 clock.minute ++ ":" ++
      padded 2 clock.second ++ DateTime.microText clock.micro)) := by
  obtain ⟨h, m, s, f⟩ := clock
  simp only [bytesOf_append, bytesOf_mark, List.append_assoc, List.singleton_append]
  by_cases whole : f = 0
  · subst whole
    have nothing : bytesOf (DateTime.microText 0) = [] := by
      rw [bytesOf_eq]
      rfl
    rw [nothing, List.append_nil]
    exact .seconds (numeral_two hour) (numeral_two minute) (numeral_two second)
  · rw [DateTime.microText, if_neg whole, bytesOf_append, bytesOf_mark.2.2.2.1, List.singleton_append]
    exact .micros (numeral_two hour) (numeral_two minute) (numeral_two second)
      (numeral_padded (by decide) micro)

/-- A time of day is printed in one of the forms if whole minutes are printed without seconds. -/
theorem clockForm_briefText (clock : Clock) (hour : clock.hour < 100) (minute : clock.minute < 100)
    (second : clock.second < 100) (micro : clock.micro < 1000000) :
    ClockForm clock (bytesOf (padded 2 clock.hour ++ ":" ++ padded 2 clock.minute ++
      (if clock.second = 0 ∧ clock.micro = 0 then ""
       else ":" ++ padded 2 clock.second ++ DateTime.microText clock.micro))) := by
  have long := clockForm_text clock hour minute second micro
  obtain ⟨h, m, s, f⟩ := clock
  split
  · rename_i whole
    obtain ⟨rfl, rfl⟩ : s = 0 ∧ f = 0 := whole
    simp only [String.append_empty, bytesOf_append, bytesOf_mark, List.append_assoc,
      List.singleton_append]
    exact .minutes (numeral_two hour) (numeral_two minute)
  · simpa only [bytesOf_append, List.append_assoc] using long

/-- An offset is printed as a sign and one of the forms. -/
theorem bytesOf_offsetText {offset : Int} (proper : ProperOffset offset) :
    ∃ bytes, bytesOf (DateTime.offsetText offset) = signByte offset :: bytes ∧
      ClockForm (offsetClock offset) bytes := by
  have short : offset.natAbs / 1000000 / 3600 < 100 := by
    unfold ProperOffset at proper
    omega
  have small : offset.natAbs / 1000000 / 60 % 60 < 100 ∧ offset.natAbs / 1000000 % 60 < 100 ∧
      offset.natAbs % 1000000 < 1000000 := by omega
  have sign : bytesOf (if offset < 0 then "-" else "+") = [signByte offset] := by
    unfold signByte
    split
    · exact bytesOf_mark.1
    · exact bytesOf_mark.2.1
  refine ⟨_, ?_, clockForm_briefText (offsetClock offset) short small.1 small.2.1 small.2.2⟩
  show bytesOf ((if offset < 0 then "-" else "+") ++ padded 2 (offsetClock offset).hour ++ ":" ++
    padded 2 (offsetClock offset).minute ++ _) = _
  simp only [bytesOf_append, sign, List.append_assoc, List.singleton_append]
  rfl

/-- The bytes of the text of a proper time. -/
theorem bytesOf_text {t : DateTime} (proper : t.Proper) {offset : Int}
    (known : t.offset = some offset) (small : ProperOffset offset) :
    ∃ year month day clock behind, Numeral 4 t.date.year.toNat year ∧ Numeral 2 t.date.month month ∧
      Numeral 2 t.date.day day ∧ ClockForm ⟨t.hour, t.minute, t.second, t.micro⟩ clock ∧
      ClockForm (offsetClock offset) behind ∧
      bytesOf t.text =
        dateBytes year month day ++ code 'T' :: (clock ++ signByte offset :: behind) := by
  obtain ⟨behind, printed, shows⟩ := bytesOf_offsetText small
  obtain ⟨years, months, days⟩ := Date.valid_iff.1 proper.date
  have longest := daysInMonth_le t.date.year t.date.month
  refine ⟨_, _, _, _, behind, numeral_padded (by decide) (by omega), numeral_two (by omega),
    numeral_two (by omega),
    clockForm_text ⟨t.hour, t.minute, t.second, t.micro⟩
      (Nat.lt_of_le_of_lt proper.hour (by decide)) (Nat.lt_of_le_of_lt proper.minute (by decide))
      (Nat.lt_of_le_of_lt proper.second (by decide)) proper.micro, shows, ?_⟩
  simp only [DateTime.text, Date.text, DateTime.clockText, known, dateBytes, bytesOf_append,
    bytesOf_mark, printed, List.append_assoc, List.cons_append, List.nil_append]

/-- The date and the time of day are found in the text of a proper time. -/
theorem parts_text {t : DateTime} (proper : t.Proper) {offset : Int}
    (known : t.offset = some offset) (small : ProperOffset offset) :
    ∃ shift, parts t.text = some (((t.date.year.toNat : Int), t.date.month, t.date.day),
      ⟨t.hour, t.minute, t.second, t.micro⟩, some shift) ∧ makeOffset shift = .ok offset := by
  obtain ⟨year, month, day, clock, behind, aYear, aMonth, aDay, clocks, shows, bytes⟩ :=
    bytesOf_text proper known small
  obtain ⟨shift, timed, made⟩ := time?_form clocks small shows
  have length := length_dateBytes aYear aMonth aDay
  have first : dateLength? (bytesOf t.text) = some 10 := by
    rw [bytes]
    exact dateLength?_date aYear aMonth aDay _
  have dated : (bytesOf t.text).take 10 = dateBytes year month day := by
    rw [bytes, ← length, List.take_left]
  have rest : (bytesOf t.text).drop 10 = code 'T' :: (clock ++ signByte offset :: behind) := by
    rw [bytes, ← length, List.drop_left]
  have mark : byteAt (bytesOf t.text) 10 = code 'T' := by
    rw [byteAt, ← Nat.add_zero 10, ← List.getElem?_drop, rest]
    rfl
  have more : ¬(bytesOf t.text).length ≤ 10 := by
    rw [bytes, List.length_append, length, List.length_cons]
    omega
  have single : 10 + characterSize (code 'T') = 10 + 1 := rfl
  refine ⟨shift, ?_, made⟩
  show (dateLength? (bytesOf t.text)).bind _ = _
  rw [first, Option.bind_some]
  show (date? ((bytesOf t.text).take 10)).bind _ = _
  rw [dated, date?_date aYear aMonth aDay, Option.bind_some]
  show (if (bytesOf t.text).length ≤ 10 then _ else
    (time? ((bytesOf t.text).drop (10 + characterSize (byteAt (bytesOf t.text) 10)))).bind _) = _
  rw [if_neg more, mark, single, ← List.drop_drop, rest, List.drop_one, List.tail_cons, timed]
  rfl

/-- **A time is read back from its text.** -/
theorem read_text {t : DateTime} (proper : t.Proper) : read t.text = .ok t := by
  obtain ⟨offset, known, small⟩ := proper.offset
  obtain ⟨shift, found, made⟩ := parts_text proper known small
  have year : (t.date.year.toNat : Int) = t.date.year := by
    have years := (Date.valid_iff.1 proper.date).1
    omega
  have date : Date.make t.date.year t.date.month t.date.day = .ok t.date := proper.date
  have whole : DateTime.make t.date.year t.date.month t.date.day t.hour t.minute t.second t.micro
      (some offset) = .ok t := by
    rw [DateTime.make, date, ok_bind, if_neg (Nat.not_lt.2 proper.hour),
      if_neg (Nat.not_lt.2 proper.minute), if_neg (Nat.not_lt.2 proper.second), ← known]
  rw [read, found]
  simp only [Option.mapM_some, made, year, Functor.map, Except.map, Except.mapError, ok_bind, whole]

end Iso

/-! ## Characters -/

/-- The character is one of those in the text of a time. -/
def isTimeChar (c : Char) : Bool := c.isDigit || ['+', '-', ':', '.', 'T'].elem c

theorem visible_of_isTimeChar {c : Char} (own : isTimeChar c = true) :
    Text.isBlank c = false ∧ c ≠ 'Z' := by
  rw [isTimeChar, Bool.or_eq_true] at own
  rcases own with digit | mark
  · exact ⟨Text.isBlank_of_isDigit digit, by rintro rfl; cases digit⟩
  · simp only [List.elem_eq_contains, List.contains_iff_mem, List.mem_cons, List.not_mem_nil,
      or_false] at mark
    rcases mark with rfl | rfl | rfl | rfl | rfl <;> decide

theorem isTimeChar_padded (width n : Nat) : (padded width n).toList.all isTimeChar = true :=
  List.all_eq_true.2 fun c member => by rw [isTimeChar, isDigit_padded width n c member, Bool.true_or]

theorem isTimeChar_microText (n : Nat) : (DateTime.microText n).toList.all isTimeChar = true := by
  rw [DateTime.microText]
  split
  · rfl
  · rw [String.toList_append, List.all_append, isTimeChar_padded, Bool.and_true]
    rfl

theorem isTimeChar_offsetText (offset : Int) :
    (DateTime.offsetText offset).toList.all isTimeChar = true := by
  have colon : ":".toList.all isTimeChar = true := rfl
  have sign : (if offset < 0 then "-" else "+").toList.all isTimeChar = true := by
    split <;> rfl
  simp only [DateTime.offsetText, String.toList_append, List.all_append, isTimeChar_padded, colon,
    sign, Bool.true_and]
  split
  · rfl
  · simp only [String.toList_append, List.all_append, isTimeChar_padded, isTimeChar_microText, colon,
      Bool.true_and]

/-- The text of a time has neither blanks nor a letter Z in it. -/
theorem isTimeChar_text (t : DateTime) : t.text.toList.all isTimeChar = true := by
  have colon : ":".toList.all isTimeChar = true := rfl
  have hyphen : "-".toList.all isTimeChar = true := rfl
  have mark : "T".toList.all isTimeChar = true := rfl
  simp only [DateTime.text, Date.text, DateTime.clockText, String.toList_append, List.all_append,
    isTimeChar_padded, isTimeChar_microText, colon, hyphen, mark, Bool.true_and]
  cases t.offset with
  | none => rfl
  | some offset => exact isTimeChar_offsetText offset

end LogAlert.Time
