/-
# LogAlert.Proofs.Json.RoundTrip -- what is printed as JSON is read back

Reading a printed value always succeeds, and gives `reread` of the value: keys have become texts and
equal keys one entry, pairs have become lists, and values that JSON has no form for have become
texts.  The proof goes over the value; every statement allows any characters behind what is read, as
long as these could not continue a number, and any fuel above the length of the printed text.

Main statement: `read?_print`.
-/
import LogAlert.Proofs.Json.Numerals
import LogAlert.Proofs.Json.Strings
import LogAlert.Proofs.Outcome

set_option autoImplicit false

namespace LogAlert.Json

/-- The text that a key is printed as. -/
def keyName : Value → String
  | .text s => s
  | .null => "null"
  | .bool b => if b then "true" else "false"
  | .int n => Text.intText n
  | .float x => x.text names
  | _ => ""

mutual

/-- The value that a value is read back as, once it has been printed. -/
def reread : Value → Value
  | .null => .null
  | .bool b => .bool b
  | .int n => .int n
  | .float x => .float x.reread
  | .text s => .text s
  | .list items => .list (rereadItems items)
  | .pair a b => .list [reread a, reread b]
  | .map entries => .map (rereadEntries [] entries)
  | .bytes octets => .text (Value.bytes octets).shown
  | .date d => .text (Value.date d).shown
  | .time t => .text (Value.time t).shown
  | .set items => .text (Value.set items).shown

/-- Each item as it is read back. -/
def rereadItems : List Value → List Value
  | [] => []
  | v :: rest => reread v :: rereadItems rest

/-- The entries as they are read back, written behind earlier ones. -/
def rereadEntries (earlier : List Value.Entry) : List Value.Entry → List Value.Entry
  | [] => earlier
  | (k, v) :: rest =>
    rereadEntries (Value.insertIn earlier (.text (keyName k)) (reread v)) rest

end

/-! ## How printed values begin -/

/-- A character that a printed number begins with. -/
def StartsNumber (c : Char) : Prop := c.isDigit = true ∨ c = '-' ∨ c = 'N' ∨ c = 'I'

/-- A character that a printed value begins with, which is neither a space nor a closing bracket. -/
def StartsValue (c : Char) : Prop := isSpace c = false ∧ c ≠ ']'

theorem StartsNumber.startsValue {c : Char} (starts : StartsNumber c) : StartsValue c := by
  rcases starts with digit | rfl | rfl | rfl
  · refine ⟨?_, ?_⟩
    · cases space : isSpace c with
      | false => rfl
      | true =>
          simp only [isSpace, Bool.or_eq_true, decide_eq_true_eq] at space
          rcases space with ((rfl | rfl) | rfl) | rfl <;> cases digit
    · rintro rfl
      cases digit
  all_goals exact ⟨rfl, by decide⟩

theorem toDigits_starts (n : Nat) : ∃ c more, Nat.toDigits 10 n = c :: more ∧ StartsNumber c := by
  have leading := Leading.of_toDigits n
  obtain ⟨c, more, same⟩ := List.exists_cons_of_ne_nil leading.ne_nil
  exact ⟨c, more, same, .inl (leading.all c (same ▸ List.mem_cons_self))⟩

theorem signed_starts (negative : Bool) {cs : List Char}
    (starts : ∃ c more, cs = c :: more ∧ StartsNumber c) :
    ∃ c more, (if negative then ['-'] else []) ++ cs = c :: more ∧ StartsNumber c := by
  cases negative with
  | false => exact starts
  | true => exact ⟨'-', cs, rfl, .inr (.inl rfl)⟩

theorem intText_starts (n : Int) :
    ∃ c more, (Text.intText n).toList = c :: more ∧ StartsNumber c := by
  have starts := signed_starts (decide (n < 0)) (toDigits_starts n.natAbs)
  rw [toList_intText]
  simpa only [decide_eq_true_eq] using starts

theorem text_starts (x : Binary64) :
    ∃ c more, (x.text names).toList = c :: more ∧ StartsNumber c := by
  cases x with
  | nan => exact ⟨'N', _, rfl, .inr (.inr (.inl rfl))⟩
  | infinite negative =>
      cases negative with
      | false => exact ⟨'I', _, rfl, .inr (.inr (.inr rfl))⟩
      | true => exact ⟨'-', _, rfl, .inr (.inl rfl)⟩
  | finite negative m e =>
      have leading := (Binary64.proper_spelling m e).leading
      obtain ⟨c, more, same⟩ := List.exists_cons_of_ne_nil leading.ne_nil
      rw [Binary64.text, Binary64.finiteText_eq]
      refine signed_starts negative ⟨c, _, by rw [Spelling.chars, same, List.cons_append], ?_⟩
      exact .inl (leading.all c (same ▸ List.mem_cons_self))

theorem intText_eq_ok {n : Int} {cs : List Char} (printed : intText n = .ok cs) :
    cs = (Text.intText n).toList ∧ Decimal.width n.natAbs ≤ Text.digitLimit := by
  rw [intText, Value.isOverlong] at printed
  split at printed
  · cases printed
  · rename_i short
    cases printed
    exact ⟨rfl, by simpa using short⟩

theorem strayText_eq_ok {strays : Strays} {v : Value} {cs : List Char}
    (printed : strayText strays v = .ok cs) : cs = stringText v.shown.toList := by
  cases strays with
  | refused => cases printed
  | asText =>
      cases printed
      rfl

theorem stringText_starts (chars : List Char) :
    ∃ c more, stringText chars = c :: more ∧ StartsValue c :=
  ⟨'"', _, rfl, rfl, by decide⟩

theorem chars_starts {strays : Strays} {v : Value} {cs : List Char}
    (printed : chars strays v = .ok cs) : ∃ c more, cs = c :: more ∧ StartsValue c := by
  cases v with
  | null =>
      cases printed
      exact ⟨'n', _, rfl, rfl, by decide⟩
  | bool b =>
      cases printed
      cases b with
      | false => exact ⟨'f', _, rfl, rfl, by decide⟩
      | true => exact ⟨'t', _, rfl, rfl, by decide⟩
  | int n =>
      rw [chars] at printed
      obtain ⟨rfl, -⟩ := intText_eq_ok printed
      obtain ⟨c, more, same, starts⟩ := intText_starts n
      exact ⟨c, more, same, starts.startsValue⟩
  | float x =>
      cases printed
      obtain ⟨c, more, same, starts⟩ := text_starts x
      exact ⟨c, more, same, starts.startsValue⟩
  | text s =>
      cases printed
      exact stringText_starts _
  | list items =>
      obtain ⟨parts, -, printed⟩ := bind_eq_ok.1 printed
      cases printed
      exact ⟨'[', _, rfl, rfl, by decide⟩
  | pair a b =>
      obtain ⟨x, -, printed⟩ := bind_eq_ok.1 printed
      obtain ⟨y, -, printed⟩ := bind_eq_ok.1 printed
      cases printed
      exact ⟨'[', _, rfl, rfl, by decide⟩
  | map entries =>
      obtain ⟨parts, -, printed⟩ := bind_eq_ok.1 printed
      cases printed
      exact ⟨'\x7b', _, rfl, rfl, by decide⟩
  | bytes _ | date _ | time _ | set _ =>
      rw [chars] at printed
      rw [strayText_eq_ok printed]
      exact stringText_starts _

theorem separated_starts {p : List Char} (parts : List (List Char))
    (starts : ∃ c more, p = c :: more ∧ StartsValue c) :
    ∃ c more, separated (p :: parts) = c :: more ∧ StartsValue c := by
  obtain ⟨c, more, rfl, startsValue⟩ := starts
  cases parts with
  | nil => exact ⟨c, more, rfl, startsValue⟩
  | cons q parts => exact ⟨c, _, rfl, startsValue⟩

theorem skip_of_starts {cs : List Char} (starts : ∃ c more, cs = c :: more ∧ StartsValue c)
    (rest : List Char) : skip (cs ++ rest) = cs ++ rest := by
  obtain ⟨c, more, rfl, visible, -⟩ := starts
  rw [List.cons_append, skip, List.dropWhile_cons_of_neg (by simp [visible])]

/-! ## Reading -/

variable {limit : Option Nat} {strays : Strays}

/-- This text is read back as the value was printed, whatever stands behind it. -/
def ReadsBack (limit : Option Nat) (v : Value) (cs : List Char) : Prop :=
  ∀ (rest : List Char) (fuel : Nat), EndsNumber rest → cs.length < fuel →
    value? limit fuel (cs ++ rest) = some (reread v, rest)

theorem value?_stringText (limit : Option Nat) (fuel : Nat) (s rest : List Char) :
    value? limit (fuel + 1) (stringText s ++ rest) = some (.text (String.ofList s), rest) := by
  have enough : s.length < (s.flatMap charText ++ '"' :: rest).length + 1 := by
    have short := length_le_flatMap_charText s
    simp only [List.length_append]
    omega
  simp only [stringText, List.cons_append, List.append_assoc, List.nil_append, value?,
    stringBody?_flatMap s rest enough, Option.bind_eq_bind, Option.bind_some]
  rfl

theorem value?_number {c : Char} (starts : StartsNumber c) (limit : Option Nat) (fuel : Nat)
    (more : List Char) : value? limit (fuel + 1) (c :: more) = number? limit (c :: more) := by
  rw [value?.eq_def]
  split
  · contradiction
  · rename_i same
    cases same
    simp only
    split
    all_goals first
      | rfl
      | rename_i same
        cases same
        rcases starts with digit | impossible | impossible | impossible
        · cases digit
        all_goals cases impossible

theorem readsBack_text (s : List Char) {v : Value} (same : reread v = .text (String.ofList s)) :
    ReadsBack limit v (stringText s) := by
  intro rest fuel _ enough
  obtain ⟨fuel, rfl⟩ := Nat.exists_eq_add_one_of_ne_zero (Nat.ne_zero_of_lt enough)
  rw [value?_stringText, same]

theorem readsBack_number {cs : List Char} {v : Value}
    (starts : ∃ c more, cs = c :: more ∧ StartsNumber c)
    (read : ∀ {rest}, EndsNumber rest → number? limit (cs ++ rest) = some (reread v, rest)) :
    ReadsBack limit v cs := by
  intro rest fuel ends enough
  obtain ⟨fuel, rfl⟩ := Nat.exists_eq_add_one_of_ne_zero (Nat.ne_zero_of_lt enough)
  obtain ⟨c, more, rfl, startsNumber⟩ := starts
  rw [List.cons_append, value?_number startsNumber]
  exact read ends

variable {v : Value} {x more rest behind : List Char} {fuel : Nat}

theorem items?_last (readsBack : ReadsBack limit v x) (enough : x.length < fuel)
    (rest : List Char) : items? limit (fuel + 1) (x ++ ']' :: rest) = some ([reread v], rest) := by
  have read := readsBack _ _ (show EndsNumber (']' :: rest) from .cons (by decide) rest) enough
  simp only [items?, read, Option.bind_eq_bind, Option.bind_some]
  rfl

theorem items?_more {vs : List Value} (readsBack : ReadsBack limit v x) (enough : x.length < fuel)
    (visible : skip more = more) (others : items? limit fuel more = some (vs, behind)) :
    items? limit (fuel + 1) (x ++ ',' :: ' ' :: more) = some (reread v :: vs, behind) := by
  have read := readsBack _ _ (show EndsNumber (',' :: ' ' :: more) from .cons (by decide) _) enough
  have blank : skip (' ' :: more) = more := visible
  have comma : skip (',' :: ' ' :: more) = ',' :: ' ' :: more := rfl
  simp only [items?, read, Option.bind_eq_bind, Option.bind_some, comma, blank, others]
  rfl

theorem itemsChars_cons {items : List Value} {parts : List (List Char)}
    (printed : itemsChars strays (v :: items) = .ok parts) :
    ∃ x xs, parts = x :: xs ∧ chars strays v = .ok x ∧ itemsChars strays items = .ok xs := by
  obtain ⟨x, one, printed⟩ := bind_eq_ok.1 printed
  obtain ⟨xs, others, printed⟩ := bind_eq_ok.1 printed
  cases printed
  exact ⟨x, xs, rfl, one, others⟩

/-- Items are read one after the other, given that each is. -/
theorem items?_separated {items : List Value} {parts : List (List Char)}
    (each : ∀ v ∈ items, ∀ cs, chars strays v = .ok cs → ReadsBack limit v cs)
    (printed : itemsChars strays items = .ok parts) (nonempty : items ≠ [])
    (enough : (separated parts).length + 1 < fuel) :
    items? limit fuel (separated parts ++ ']' :: rest) = some (rereadItems items, rest) := by
  induction items generalizing parts fuel with
  | nil => exact absurd rfl nonempty
  | cons v items ih =>
      obtain ⟨x, xs, rfl, one, others⟩ := itemsChars_cons printed
      have readsBack := each v List.mem_cons_self x one
      obtain ⟨fuel, rfl⟩ := Nat.exists_eq_add_one_of_ne_zero (Nat.ne_zero_of_lt enough)
      cases items with
      | nil =>
          cases others
          exact items?_last readsBack (Nat.lt_of_succ_lt_succ enough) rest
      | cons w items =>
          obtain ⟨y, ys, rfl, two, -⟩ := itemsChars_cons others
          simp only [separated, List.length_append, List.length_cons] at enough
          have read : items? limit fuel (separated (y :: ys) ++ ']' :: rest) =
              some (rereadItems (w :: items), rest) :=
            ih (fun v member => each v (List.mem_cons_of_mem _ member)) others
              (List.cons_ne_nil _ _) (by omega)
          simp only [separated, List.append_assoc, List.cons_append]
          exact items?_more readsBack (by omega)
            (skip_of_starts (separated_starts ys (chars_starts two)) _) read

/-! ## Entries -/

/-- What is printed for one entry. -/
def entryText (key x : List Char) : List Char := key ++ ':' :: ' ' :: x

theorem keyText_eq_ok {k : Value} {key : List Char} (printed : keyText k = .ok key) :
    key = stringText (keyName k).toList := by
  cases k with
  | text s =>
      cases printed
      rfl
  | null =>
      cases printed
      rfl
  | bool b =>
      cases printed
      cases b <;> rfl
  | float x =>
      cases printed
      rfl
  | int n =>
      rw [keyText] at printed
      cases text : intText n with
      | error _ =>
          rw [text] at printed
          cases printed
      | ok cs =>
          rw [text] at printed
          cases printed
          rw [(intText_eq_ok text).1]
          rfl
  | _ => cases printed

theorem entryText_starts (key x : List Char) :
    ∃ c more, entryText (stringText key) x = c :: more ∧ StartsValue c :=
  ⟨'"', _, rfl, rfl, by decide⟩

theorem entriesChars_cons {entry : Value.Entry} {entries : List Value.Entry}
    {parts : List (List Char)} (printed : entriesChars strays (entry :: entries) = .ok parts) :
    ∃ x xs, parts = entryText (stringText (keyName entry.1).toList) x :: xs ∧
      chars strays entry.2 = .ok x ∧ entriesChars strays entries = .ok xs := by
  obtain ⟨k, v⟩ := entry
  obtain ⟨key, named, printed⟩ := bind_eq_ok.1 printed
  obtain ⟨x, one, printed⟩ := bind_eq_ok.1 printed
  obtain ⟨xs, others, printed⟩ := bind_eq_ok.1 printed
  cases printed
  exact ⟨x, xs, by rw [← keyText_eq_ok named]; rfl, one, others⟩

/-- The key and the value of an entry are read; what follows them is a comma or the end. -/
theorem entries?_entry {earlier : List Value.Entry} (key : List Char)
    (readsBack : ReadsBack limit v x) (visible : skip (x ++ more) = x ++ more)
    (ends : EndsNumber more) (enough : x.length < fuel) :
    entries? limit (fuel + 1) earlier (entryText (stringText key) x ++ more) =
      match skip more with
      | ',' :: more =>
        entries? limit fuel (Value.insertIn earlier (.text (String.ofList key)) (reread v))
          (skip more)
      | '\x7d' :: behind =>
        some (Value.insertIn earlier (.text (String.ofList key)) (reread v), behind)
      | _ => none := by
  have short : key.length <
      (key.flatMap charText ++ '"' :: ':' :: ' ' :: (x ++ more)).length + 1 := by
    have shorter := length_le_flatMap_charText key
    simp only [List.length_append]
    omega
  have colon : skip (':' :: ' ' :: (x ++ more)) = ':' :: ' ' :: (x ++ more) := rfl
  have blank : skip (' ' :: (x ++ more)) = x ++ more := visible
  simp only [entryText, stringText, List.cons_append, List.append_assoc, List.nil_append, entries?,
    stringBody?_flatMap key _ short, Option.bind_eq_bind, Option.bind_some, colon, blank,
    readsBack more fuel ends enough]
  rfl

theorem entries?_last {earlier : List Value.Entry} (key : List Char)
    (readsBack : ReadsBack limit v x) (visible : ∀ more, skip (x ++ more) = x ++ more)
    (enough : x.length < fuel) (rest : List Char) :
    entries? limit (fuel + 1) earlier (entryText (stringText key) x ++ '\x7d' :: rest) =
      some (Value.insertIn earlier (.text (String.ofList key)) (reread v), rest) := by
  rw [entries?_entry key readsBack (visible _) (.cons (by decide) rest) enough]
  rfl

theorem entries?_more {earlier : List Value.Entry} (key : List Char)
    (readsBack : ReadsBack limit v x) (visible : ∀ more, skip (x ++ more) = x ++ more)
    (enough : x.length < fuel) (next : skip more = more) :
    entries? limit (fuel + 1) earlier (entryText (stringText key) x ++ ',' :: ' ' :: more) =
      entries? limit fuel (Value.insertIn earlier (.text (String.ofList key)) (reread v)) more := by
  have comma : skip (',' :: ' ' :: more) = ',' :: ' ' :: more := rfl
  have blank : skip (' ' :: more) = more := next
  rw [entries?_entry key readsBack (visible _) (.cons (by decide) _) enough]
  simp only [comma, blank]

/-- Entries are read one after the other, given that their values are. -/
theorem entries?_separated {entries earlier : List Value.Entry} {parts : List (List Char)}
    (each : ∀ entry ∈ entries, ∀ cs, chars strays entry.2 = .ok cs → ReadsBack limit entry.2 cs)
    (printed : entriesChars strays entries = .ok parts) (nonempty : entries ≠ [])
    (enough : (separated parts).length + 1 < fuel) :
    entries? limit fuel earlier (separated parts ++ '\x7d' :: rest) =
      some (rereadEntries earlier entries, rest) := by
  induction entries generalizing earlier parts fuel with
  | nil => exact absurd rfl nonempty
  | cons entry entries ih =>
      obtain ⟨x, xs, rfl, one, others⟩ := entriesChars_cons printed
      have readsBack := each entry List.mem_cons_self x one
      have visible := skip_of_starts (chars_starts one)
      have longer : x.length ≤ (entryText (stringText (keyName entry.1).toList) x).length := by
        simp only [entryText, List.length_append, List.length_cons]
        omega
      obtain ⟨fuel, rfl⟩ := Nat.exists_eq_add_one_of_ne_zero (Nat.ne_zero_of_lt enough)
      cases entries with
      | nil =>
          cases others
          rw [separated] at enough ⊢
          rw [entries?_last _ readsBack visible (by omega), String.ofList_toList]
          rfl
      | cons next entries =>
          obtain ⟨y, ys, rfl, -, -⟩ := entriesChars_cons others
          simp only [separated, List.length_append, List.length_cons] at enough
          have behind := skip_of_starts (separated_starts ys
            (entryText_starts (keyName next.1).toList y)) ('\x7d' :: rest)
          simp only [separated, List.append_assoc, List.cons_append]
          rw [entries?_more _ readsBack visible (by omega) behind, String.ofList_toList]
          exact ih (fun entry member => each entry (List.mem_cons_of_mem _ member)) others
            (List.cons_ne_nil _ _) (by omega)

/-! ## Values -/

theorem value?_bracket {input : List Char} {items : List Value} (visible : skip input = input)
    (starts : ∃ c more, input = c :: more ∧ c ≠ ']')
    (read : items? limit fuel input = some (items, behind)) :
    value? limit (fuel + 1) ('[' :: input) = some (.list items, behind) := by
  obtain ⟨c, more, rfl, notClosing⟩ := starts
  simp only [value?, visible]
  split
  · rename_i same
    cases same
    exact absurd rfl notClosing
  · rw [read]
    rfl

theorem value?_brace {input : List Char} {entries : List Value.Entry} (visible : skip input = input)
    (starts : ∃ c more, input = c :: more ∧ c ≠ '\x7d')
    (read : entries? limit fuel [] input = some (entries, behind)) :
    value? limit (fuel + 1) ('\x7b' :: input) = some (.map entries, behind) := by
  obtain ⟨c, more, rfl, notClosing⟩ := starts
  simp only [value?, visible]
  split
  · rename_i same
    cases same
    exact absurd rfl notClosing
  · rw [read]
    rfl

theorem readsBack_list {items : List Value} {parts : List (List Char)}
    (each : ∀ v ∈ items, ∀ cs, chars strays v = .ok cs → ReadsBack limit v cs)
    (printed : itemsChars strays items = .ok parts) :
    ReadsBack limit (.list items) ('[' :: separated parts ++ [']']) := by
  intro rest fuel _ enough
  obtain ⟨fuel, rfl⟩ := Nat.exists_eq_add_one_of_ne_zero (Nat.ne_zero_of_lt enough)
  cases items with
  | nil =>
      cases printed
      rfl
  | cons v items =>
      obtain ⟨x, xs, rfl, one, -⟩ := itemsChars_cons printed
      have starts := separated_starts xs (chars_starts one)
      simp only [List.cons_append, List.length_cons, List.length_append, List.length_nil] at enough
      have read : items? limit fuel (separated (x :: xs) ++ ']' :: rest) =
          some (rereadItems (v :: items), rest) :=
        items?_separated each printed (List.cons_ne_nil _ _) (by omega)
      have whole := skip_of_starts starts (']' :: rest)
      obtain ⟨c, more, same, -, notClosing⟩ := starts
      rw [List.cons_append, List.cons_append, List.append_assoc]
      exact value?_bracket whole ⟨c, _, by rw [same]; rfl, notClosing⟩ read

theorem readsBack_map {entries : List Value.Entry} {parts : List (List Char)}
    (each : ∀ entry ∈ entries, ∀ cs, chars strays entry.2 = .ok cs → ReadsBack limit entry.2 cs)
    (printed : entriesChars strays entries = .ok parts) :
    ReadsBack limit (.map entries) ('\x7b' :: separated parts ++ ['\x7d']) := by
  intro rest fuel _ enough
  obtain ⟨fuel, rfl⟩ := Nat.exists_eq_add_one_of_ne_zero (Nat.ne_zero_of_lt enough)
  cases entries with
  | nil =>
      cases printed
      rfl
  | cons entry entries =>
      obtain ⟨x, xs, rfl, -, -⟩ := entriesChars_cons printed
      have starts := separated_starts xs (entryText_starts (keyName entry.1).toList x)
      simp only [List.cons_append, List.length_cons, List.length_append, List.length_nil] at enough
      have read : entries? limit fuel []
          (separated (entryText (stringText (keyName entry.1).toList) x :: xs) ++ '\x7d' :: rest) =
          some (rereadEntries [] (entry :: entries), rest) :=
        entries?_separated each printed (List.cons_ne_nil _ _) (by omega)
      have whole := skip_of_starts starts ('\x7d' :: rest)
      rw [List.cons_append, List.cons_append, List.append_assoc]
      refine value?_brace whole ?_ read
      cases xs <;> exact ⟨'"', _, rfl, by decide⟩

/-- Every value is read back from what is printed for it, where numbers may have as many digits as
are printed. -/
theorem readsBack (wide : ∀ most ∈ limit, Text.digitLimit ≤ most) (v : Value) {cs : List Char}
    (printed : chars strays v = .ok cs) : ReadsBack limit v cs := by
  match v with
  | .null =>
      cases printed
      intro rest fuel _ enough
      obtain ⟨fuel, rfl⟩ := Nat.exists_eq_add_one_of_ne_zero (Nat.ne_zero_of_lt enough)
      rfl
  | .bool b =>
      cases printed
      intro rest fuel _ enough
      obtain ⟨fuel, rfl⟩ := Nat.exists_eq_add_one_of_ne_zero (Nat.ne_zero_of_lt enough)
      cases b <;> rfl
  | .int n =>
      rw [chars] at printed
      obtain ⟨rfl, short⟩ := intText_eq_ok printed
      exact readsBack_number (intText_starts n) fun ends =>
        number?_intText (fun most within => Nat.le_trans short (wide most within)) ends
  | .float x =>
      cases printed
      exact readsBack_number (text_starts x) fun ends => number?_text limit x ends
  | .text s =>
      cases printed
      exact readsBack_text _ (by rw [String.ofList_toList]; rfl)
  | .list items =>
      obtain ⟨parts, inner, printed⟩ := bind_eq_ok.1 printed
      cases printed
      exact readsBack_list (fun v member _ one => readsBack wide v one) inner
  | .pair a b =>
      obtain ⟨x, one, printed⟩ := bind_eq_ok.1 printed
      obtain ⟨y, two, printed⟩ := bind_eq_ok.1 printed
      cases printed
      have left := readsBack wide a one
      have right := readsBack wide b two
      have each : ∀ v ∈ [a, b], ∀ cs, chars strays v = .ok cs → ReadsBack limit v cs := by
        simp only [List.mem_cons, List.not_mem_nil, or_false]
        rintro _ (rfl | rfl) cs same
        · cases one.symm.trans same
          exact left
        · cases two.symm.trans same
          exact right
      exact readsBack_list each (by simp only [itemsChars, one, two, ok_bind]; rfl)
  | .map entries =>
      obtain ⟨parts, inner, printed⟩ := bind_eq_ok.1 printed
      cases printed
      exact readsBack_map (fun entry member _ one => readsBack wide entry.2 one) inner
  | .bytes _ | .date _ | .time _ | .set _ =>
      rw [chars] at printed
      rw [strayText_eq_ok printed]
      exact readsBack_text _ (by rw [String.ofList_toList]; rfl)
termination_by sizeOf v
decreasing_by
  · have smaller := List.sizeOf_lt_of_mem member
    rw [Value.list.sizeOf_spec]
    omega
  · rw [Value.pair.sizeOf_spec]
    omega
  · rw [Value.pair.sizeOf_spec]
    omega
  · have smaller := List.sizeOf_lt_of_mem member
    have part : sizeOf entry.2 < sizeOf entry := by
      rw [Prod.mk.sizeOf_spec]
      omega
    rw [Value.map.sizeOf_spec]
    omega

/-- **Printed values are read back.**  Every text that is printed for a value is read again, as
`reread` of the value. -/
theorem read?_print (wide : ∀ most ∈ limit, Text.digitLimit ≤ most) {v : Value} {text : String}
    (printed : print strays v = .ok text) : read? limit text = some (reread v) := by
  rw [print] at printed
  cases written : chars strays v with
  | error _ =>
      rw [written] at printed
      cases printed
  | ok cs =>
      rw [written] at printed
      cases printed
      have visible := skip_of_starts (chars_starts written) []
      have read := readsBack wide v written [] (cs.length + 1) .nil (Nat.lt_succ_self _)
      rw [List.append_nil] at visible read
      simp only [read?, String.toList_ofList, visible, read, Option.bind_eq_bind, Option.bind_some]
      rfl

end LogAlert.Json
