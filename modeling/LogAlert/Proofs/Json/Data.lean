/-
# LogAlert.Proofs.Json.Data -- values that JSON has a form for

`Value.IsJson` says that a value can be what a JSON text writes: its integers are not too long, its
values of floating point have the form in which such values are made, and the keys of its mappings
are distinct texts.  Whatever the reader finds in a text is such a value (`isJson_of_read?`).  Such a
value is always printed (`IsJson.chars_total`), and it is read back as it was (`IsJson.reread_eq`).
-/
import LogAlert.Proofs.Json.Floats
import LogAlert.Proofs.Json.Stable

set_option autoImplicit false

namespace LogAlert

/-- The value can be what a JSON text writes. -/
inductive Value.IsJson : Value → Prop where
  | null : IsJson .null
  | bool (truth : Bool) : IsJson (.bool truth)
  | int {n : Int} (short : isOverlong n = false) : IsJson (.int n)
  | float {x : Binary64} (canonical : x.Canonical) : IsJson (.float x)
  | text (chars : String) : IsJson (.text chars)
  | list {items : List Value} (each : ∀ v ∈ items, IsJson v) : IsJson (.list items)
  | map {parts : List (String × Value)} (distinct : (parts.map Prod.fst).Nodup)
    (each : ∀ part ∈ parts, IsJson part.2) : IsJson (.map (named parts))

namespace Value.IsJson

variable {v : Value}

theorem empty : IsJson (.map []) := .map (show ([].map Prod.fst).Nodup from List.nodup_nil) nofun

theorem ofText? (text : Option String) : (Value.ofText? text).IsJson := by
  cases text with
  | none => exact .null
  | some text => exact .text text

theorem texts (items : List String) : (Value.list (items.map .text)).IsJson := by
  refine .list fun v member => ?_
  obtain ⟨text, -, rfl⟩ := List.mem_map.1 member
  exact .text text

/-- The entries of a mapping have distinct names. -/
theorem parts {entries : List Entry} (json : (Value.map entries).IsJson) :
    ∃ parts, entries = named parts ∧ (parts.map Prod.fst).Nodup ∧ ∀ part ∈ parts, part.2.IsJson := by
  cases json with
  | map distinct each => exact ⟨_, rfl, distinct, each⟩

theorem insertIn {entries : List Entry} (json : (Value.map entries).IsJson) (key : String)
    (one : v.IsJson) : (Value.map (Value.insertIn entries (.text key) v)).IsJson := by
  obtain ⟨parts, rfl, distinct, each⟩ := json.parts
  rw [insertIn_named parts (key, v)]
  refine .map (nodup_overwrite distinct _) fun part member => ?_
  rcases mem_overwrite member with rfl | old
  · exact one
  · exact each part old

/-- What a mapping has for a name. -/
theorem get {entries : List Entry} (json : (Value.map entries).IsJson) (key : String) :
    (Value.get entries key).IsJson := by
  obtain ⟨parts, rfl, -, each⟩ := json.parts
  rw [Value.get, Value.at?_named]
  cases found : parts.lookup key with
  | none => exact .null
  | some v => exact each (key, v) (mem_of_lookup found)

/-! ## Printing -/

theorem reread_eq (json : v.IsJson) : Json.reread v = v := by
  induction json with
  | null => rfl
  | bool truth => rfl
  | int short => rfl
  | float canonical => exact congrArg Value.float (Binary64.reread_of_canonical canonical)
  | text chars => rfl
  | list each ih => exact Json.reread_list ih
  | map distinct each ih => exact Json.reread_named_of_stable distinct ih

theorem itemsChars_total {strays : Json.Strays} {items : List Value}
    (each : ∀ v ∈ items, ∃ cs, Json.chars strays v = .ok cs) :
    ∃ parts, Json.itemsChars strays items = .ok parts := by
  induction items with
  | nil => exact ⟨[], rfl⟩
  | cons v rest ih =>
      obtain ⟨x, one⟩ := each v List.mem_cons_self
      obtain ⟨xs, others⟩ := ih fun w member => each w (List.mem_cons_of_mem v member)
      exact ⟨x :: xs, by rw [Json.itemsChars, one, ok_bind, others]; rfl⟩

theorem entriesChars_total {strays : Json.Strays} {parts : List (String × Value)}
    (each : ∀ part ∈ parts, ∃ cs, Json.chars strays part.2 = .ok cs) :
    ∃ printed, Json.entriesChars strays (named parts) = .ok printed := by
  induction parts with
  | nil => exact ⟨[], rfl⟩
  | cons part rest ih =>
      obtain ⟨x, one⟩ := each part List.mem_cons_self
      obtain ⟨xs, others⟩ := ih fun other member => each other (List.mem_cons_of_mem part member)
      rw [named] at others
      refine ⟨Json.entryText (Json.stringText part.1.toList) x :: xs, ?_⟩
      rw [named, List.map_cons, Json.entriesChars, Json.keyText, ok_bind, one, ok_bind, others]
      rfl

theorem chars_total (strays : Json.Strays) (json : v.IsJson) :
    ∃ cs, Json.chars strays v = .ok cs := by
  induction json with
  | null => exact ⟨_, rfl⟩
  | bool truth => exact ⟨_, rfl⟩
  | int short =>
      rw [Json.chars, Json.intText, short]
      exact ⟨_, rfl⟩
  | float canonical => exact ⟨_, rfl⟩
  | text chars => exact ⟨_, rfl⟩
  | list each ih =>
      obtain ⟨parts, printed⟩ := itemsChars_total ih
      rw [Json.chars, printed]
      exact ⟨_, rfl⟩
  | map distinct each ih =>
      obtain ⟨parts, printed⟩ := entriesChars_total ih
      rw [Json.chars, printed]
      exact ⟨_, rfl⟩

end Value.IsJson

/-- A number below the limit is written with few enough digits. -/
theorem Value.isOverlong_of_lt {n : Int} (short : n.natAbs < 10 ^ Text.digitLimit) :
    isOverlong n = false :=
  decide_eq_false (Nat.not_lt.2 ((Nat.length_toDigits_le_iff (by decide) (by decide)).2 short))

/-- A number that is not below the limit is written with too many digits. -/
theorem Value.isOverlong_of_le {n : Int} (long : 10 ^ Text.digitLimit ≤ n.natAbs) :
    isOverlong n = true :=
  decide_eq_true (Nat.lt_of_not_le fun short =>
    absurd ((Nat.length_toDigits_le_iff (by decide) (by decide)).1 short) (Nat.not_lt.2 long))

/-- The longest number that is written is followed by one that is not. -/
theorem Value.exists_last_short :
    ∃ n : Int, 0 ≤ n ∧ isOverlong n = false ∧ isOverlong (n + 1) = true := by
  obtain ⟨n, longest⟩ := Nat.exists_eq_succ_of_ne_zero (pow_pos (show 0 < 10 by decide) Text.digitLimit).ne'
  refine ⟨n, Int.natCast_nonneg n, isOverlong_of_lt ?_, isOverlong_of_le ?_⟩
  · rw [longest, Int.natAbs_natCast]
    exact Nat.lt_succ_self n
  · rw [longest, ← Nat.cast_succ, Int.natAbs_natCast]

/-- A count below one with few enough digits has few enough digits. -/
theorem Value.isOverlong_of_smaller {m n : Int} (counted : 0 ≤ m) (smaller : m ≤ n)
    (short : isOverlong n = false) : isOverlong m = false := by
  have size : m.natAbs ≤ n.natAbs := by omega
  refine isOverlong_of_lt (Nat.lt_of_not_le fun long => ?_)
  rw [isOverlong_of_le (long.trans size)] at short
  cases short

/-! ## Reading -/

namespace Json

theorem digitsNat_lt {ds : List Char} (all : ∀ c ∈ ds, c.isDigit = true) :
    digitsNat ds < 10 ^ ds.length := by
  induction ds using List.reverseRecOn with
  | nil => decide
  | append_singleton ds c ih =>
      have before := ih fun d member => all d (List.mem_append_left _ member)
      have bounds := Text.bounds_of_isDigit (all c (by simp))
      have last : digitsNat (ds ++ [c]) = 10 * digitsNat ds + (c.toNat - 48) := by
        simp [digitsNat, Text.ofDigits]
      rw [last, List.length_append, List.length_singleton, Nat.pow_succ]
      omega

/-- An integer of so few digits can be printed. -/
theorem isJson_digits {ds : List Char} (all : ∀ c ∈ ds, c.isDigit = true)
    (few : ds.length ≤ Text.digitLimit) {n : Int} (size : n.natAbs = digitsNat ds) :
    (Value.int n).IsJson := by
  refine .int (Value.isOverlong_of_lt ?_)
  rw [size]
  exact Nat.lt_of_lt_of_le (digitsNat_lt all) (Nat.pow_le_pow_right (by decide) few)

/-- A number whose whole part consists of these digits, with a fraction and an exponent behind them
or without. -/
theorem isJson_parts {ds places more rest : List Char} {power : Option Int} {negative : Bool}
    {v : Value} (all : ∀ c ∈ ds, c.isDigit = true)
    (read : (if ds.isEmpty then none
      else if places.isEmpty ∧ power.isNone then
        if (some Text.digitLimit).any (· < ds.length) then none
        else some (Value.int (if negative then -(digitsNat ds : Int) else digitsNat ds), more)
      else some (.float ((⟨digitsNat (ds ++ places), power.getD 0 - places.length⟩ :
        Decimal).toBinary negative), more)) = some (v, rest)) : v.IsJson := by
  split at read
  · cases read
  split at read
  · split at read
    · cases read
    · rename_i few
      cases read
      exact isJson_digits all (Nat.not_lt.1 (mt decide_eq_true few))
        (by split <;> simp)
  · cases read
    exact .float (Decimal.canonical_toBinary _ _)

theorem isJson_unsigned? {negative : Bool} {input rest : List Char} {v : Value}
    (read : unsigned? (some Text.digitLimit) negative input = some (v, rest)) : v.IsJson := by
  unfold unsigned? digits at read
  dsimp only at read
  -- a zero in front of other digits is a number of its own
  split at read
  · exact isJson_parts (by simp) read
  · exact isJson_parts (fun c member => List.mem_takeWhile_imp member) read

theorem isJson_number? {input rest : List Char} {v : Value}
    (read : number? (some Text.digitLimit) input = some (v, rest)) : v.IsJson := by
  unfold number? at read
  split at read
  · cases read
    exact .float trivial
  · cases read
    exact .float trivial
  · cases read
    exact .float trivial
  · exact isJson_unsigned? read
  · exact isJson_unsigned? read

/-- Everything that is read with so much fuel is JSON. -/
structure ReadsJson (fuel : Nat) : Prop where
  value {input rest : List Char} {v : Value}
    (read : value? (some Text.digitLimit) fuel input = some (v, rest)) : v.IsJson
  items {input rest : List Char} {items : List Value}
    (read : items? (some Text.digitLimit) fuel input = some (items, rest)) : ∀ v ∈ items, v.IsJson
  entries {input rest : List Char} {earlier entries : List Value.Entry}
    (before : (Value.map earlier).IsJson)
    (read : entries? (some Text.digitLimit) fuel earlier input = some (entries, rest)) :
    (Value.map entries).IsJson

section

variable {fuel : Nat} {input rest : List Char}

theorem ReadsJson.value_succ (reads : ReadsJson fuel) {v : Value}
    (read : value? (some Text.digitLimit) (fuel + 1) input = some (v, rest)) : v.IsJson := by
  unfold value? at read
  split at read
  · obtain ⟨⟨s, behind⟩, -, read⟩ := Option.bind_eq_some_iff.1 read
    cases read
    exact .text _
  · split at read
    · cases read
      exact .list (by simp)
    · obtain ⟨⟨items, behind⟩, inner, read⟩ := Option.bind_eq_some_iff.1 read
      cases read
      exact .list (reads.items inner)
  · split at read
    · cases read
      exact .empty
    · obtain ⟨⟨entries, behind⟩, inner, read⟩ := Option.bind_eq_some_iff.1 read
      cases read
      exact reads.entries .empty inner
  · cases read
    exact .null
  · cases read
    exact .bool true
  · cases read
    exact .bool false
  · exact isJson_number? read

theorem ReadsJson.items_succ (reads : ReadsJson fuel) {items : List Value}
    (read : items? (some Text.digitLimit) (fuel + 1) input = some (items, rest)) :
    ∀ v ∈ items, v.IsJson := by
  unfold items? at read
  obtain ⟨⟨v, behind⟩, first, read⟩ := Option.bind_eq_some_iff.1 read
  have one := reads.value first
  dsimp only at read
  split at read
  · obtain ⟨⟨more, behind⟩, others, read⟩ := Option.bind_eq_some_iff.1 read
    cases read
    simpa using ⟨one, reads.items others⟩
  · cases read
    simpa using one
  · cases read

theorem ReadsJson.entries_succ (reads : ReadsJson fuel) {earlier entries : List Value.Entry}
    (before : (Value.map earlier).IsJson)
    (read : entries? (some Text.digitLimit) (fuel + 1) earlier input = some (entries, rest)) :
    (Value.map entries).IsJson := by
  unfold entries? at read
  split at read
  · obtain ⟨⟨key, behind⟩, -, read⟩ := Option.bind_eq_some_iff.1 read
    dsimp only at read
    split at read
    · obtain ⟨⟨v, behind⟩, first, read⟩ := Option.bind_eq_some_iff.1 read
      have written := before.insertIn (String.ofList key) (reads.value first)
      dsimp only at read
      split at read
      · exact reads.entries written read
      · cases read
        exact written
      · cases read
    · cases read
  · cases read

end

theorem readsJson (fuel : Nat) : ReadsJson fuel := by
  induction fuel with
  | zero => exact ⟨nofun, nofun, fun _ => nofun⟩
  | succ fuel ih => exact ⟨ih.value_succ, ih.items_succ, ih.entries_succ⟩

/-- **What is read from a JSON text is JSON**, if the integers in it are not too long. -/
theorem isJson_of_read? {text : String} {v : Value}
    (read : read? (some Text.digitLimit) text = some v) : v.IsJson := by
  obtain ⟨⟨found, rest⟩, inner, read⟩ := Option.bind_eq_some_iff.1 read
  dsimp only at read
  split at read
  · cases read
    exact (readsJson _).value inner
  · cases read

end Json

end LogAlert
