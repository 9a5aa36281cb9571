/-
# LogAlert.Proofs.Value.Keys -- keys of any kind

Keys are compared by `Value.same`, which takes the number 1, the number 1.0 and the truth value true
for one key.  What is compared is the `Mark` of a key: numbers are marked by their size, times with a
known offset by their instant.  Lists, sets and mappings cannot be keys and have no mark.  On keys
`same` is equality of marks (`same_iff_mark?`), and so an equivalence.

With this, looking up behind writing is what it should be, for keys of any kind (`lookupIn_insertIn`).
-/
import LogAlert.Proofs.Number.Rounding
import LogAlert.Proofs.Value.Entries

set_option autoImplicit false

namespace LogAlert

namespace Value

/-- What is compared when keys are compared. -/
inductive Mark where
  | null
  | text (chars : String)
  | bytes (octets : List UInt8)
  | date (day : Time.Date)
  | time (offsetKnown : Bool) (instant : Time.Instant)
  | number (size : ℚ)
  | infinite (negative : Bool)
  | undefined
  | pair (first second : Mark)

/-- The mark of a value of floating point. -/
def floatMark (x : Binary64) : Mark :=
  match x.ratio? with
  | some (num, den) => .number (num / den)
  | none => match x with
    | .infinite negative => .infinite negative
    | _ => .undefined

/-- The mark of a number. -/
def Numeric.mark : Numeric → Mark
  | .int n => .number n
  | .float x => floatMark x

/-- The mark of a value that can be a key. -/
def mark? : Value → Option Mark
  | .null => some .null
  | .bool b => some (.number (if b then 1 else 0))
  | .int n => some (.number n)
  | .float x => some (floatMark x)
  | .text s => some (.text s)
  | .bytes octets => some (.bytes octets)
  | .date day => some (.date day)
  | .time t => some (.time t.offset.isSome t.instant)
  | .pair a b => (mark? a).bind fun first => (mark? b).map fun second => .pair first second
  | .list _ | .set _ | .map _ => none

/-- The value can be a key. -/
def IsKey (key : Value) : Prop := key.unkeyable? = none

instance (key : Value) : Decidable key.IsKey :=
  decidable_of_iff (key.unkeyable?.isNone = true) Option.isNone_iff_eq_none

/-! ## Numbers -/

/-- The mark of a finite value is its size, a quotient of integers. -/
theorem ratio?_finite (negative : Bool) (m : Nat) (e : Int) :
    ∃ num den, (Binary64.finite negative m e).ratio? = some (num, den) ∧ (den : ℚ) ≠ 0 :=
  ⟨_, _, rfl, Nat.cast_ne_zero.2 (Binary64.magnitude_snd_pos m e).ne'⟩

theorem eqInt_iff (x : Binary64) (n : Int) : x.eqInt n = true ↔ floatMark x = .number n := by
  cases x with
  | finite negative m e =>
      obtain ⟨num, den, ratio, positive⟩ := ratio?_finite negative m e
      simp only [Binary64.eqInt, floatMark, ratio, beq_iff_eq, Mark.number.injEq]
      rw [div_eq_iff positive]
      norm_cast
  | infinite negative => simp [Binary64.eqInt, floatMark, Binary64.ratio?]
  | nan => simp [Binary64.eqInt, floatMark, Binary64.ratio?]

theorem numEq_finite_iff (negative : Bool) (m : Nat) (e : Int) (y : Binary64) :
    (Binary64.finite negative m e).numEq y = true ↔
      floatMark (.finite negative m e) = floatMark y := by
  obtain ⟨num, den, ratio, positive⟩ := ratio?_finite negative m e
  cases y with
  | finite negative' m' e' =>
      obtain ⟨num', den', ratio', positive'⟩ := ratio?_finite negative' m' e'
      simp only [Binary64.numEq, floatMark, ratio, ratio', beq_iff_eq, Mark.number.injEq]
      rw [div_eq_div_iff positive positive']
      norm_cast
  | infinite negative' => simp [Binary64.numEq, floatMark, Binary64.ratio?]
  | nan => simp [Binary64.numEq, floatMark, Binary64.ratio?]

/-- Numbers are the same if they have the same size, of whatever kind they are. -/
theorem Numeric.same_iff (x y : Numeric) : x.same y = true ↔ x.mark = y.mark := by
  match x, y with
  | .int a, .int b => simp [Numeric.same, Numeric.mark]
  | .int a, .float y => exact (eqInt_iff y a).trans eq_comm
  | .float x, .int b => exact eqInt_iff x b
  | .float .nan, .float .nan => exact iff_of_true rfl rfl
  | .float (.finite negative m e), .float y =>
      have compared : (float (.finite negative m e)).same (.float y) =
          (Binary64.finite negative m e).numEq y := by cases y <;> rfl
      rw [compared]
      exact numEq_finite_iff negative m e y
  | .float (.infinite _), .float (.finite _ _ _) | .float .nan, .float (.finite _ _ _) =>
      simp [Numeric.same, Numeric.mark, Binary64.numEq, floatMark, Binary64.ratio?]
  | .float (.infinite _), .float (.infinite _) | .float (.infinite _), .float .nan
  | .float .nan, .float (.infinite _) =>
      simp [Numeric.same, Numeric.mark, Binary64.numEq, floatMark, Binary64.ratio?]

/-! ## Keys -/

theorem isKey_pair {a b : Value} : (pair a b).IsKey ↔ a.IsKey ∧ b.IsKey := Option.or_eq_none_iff

theorem isKey_text (s : String) : (text s).IsKey := rfl

/-- Keys have a mark. -/
theorem IsKey.marked : ∀ {key : Value}, key.IsKey → ∃ mark, key.mark? = some mark
  | .null, _ | .bool _, _ | .int _, _ | .float _, _ | .text _, _ | .bytes _, _ | .date _, _
  | .time _, _ => ⟨_, rfl⟩
  | .pair _ _, isKey => by
      obtain ⟨first, markedFirst⟩ := (isKey_pair.1 isKey).1.marked
      obtain ⟨second, markedSecond⟩ := (isKey_pair.1 isKey).2.marked
      exact ⟨.pair first second, by rw [mark?, markedFirst, markedSecond]; rfl⟩
  | .list _, isKey | .set _, isKey | .map _, isKey => by cases isKey

/-- What has a mark is a key. -/
theorem isKey_of_marked : ∀ {key : Value} {mark : Mark}, key.mark? = some mark → key.IsKey
  | .null, _, _ | .bool _, _, _ | .int _, _, _ | .float _, _, _ | .text _, _, _ | .bytes _, _, _
  | .date _, _, _ | .time _, _, _ => rfl
  | .pair _ _, _, marked => by
      obtain ⟨_, markedFirst, marked⟩ := Option.bind_eq_some_iff.1 marked
      obtain ⟨_, markedSecond, -⟩ := Option.map_eq_some_iff.1 marked
      exact isKey_pair.2 ⟨isKey_of_marked markedFirst, isKey_of_marked markedSecond⟩
  | .list _, _, marked | .set _, _, marked | .map _, _, marked => by cases marked

/-- The kinds of values; all numbers are of one kind. -/
inductive Family where
  | null | number | text | bytes | date | time | list | pair | set | map

def family : Value → Family
  | .null => .null
  | .bool _ | .int _ | .float _ => .number
  | .text _ => .text
  | .bytes _ => .bytes
  | .date _ => .date
  | .time _ => .time
  | .list _ => .list
  | .pair _ _ => .pair
  | .set _ => .set
  | .map _ => .map

def Mark.family : Mark → Family
  | .null => .null
  | .number _ | .infinite _ | .undefined => .number
  | .text _ => .text
  | .bytes _ => .bytes
  | .date _ => .date
  | .time _ _ => .time
  | .pair _ _ => .pair

theorem family_of_same {a b : Value} (same : a.same b = true) : a.family = b.family := by
  cases a <;> cases b <;> first | rfl | cases same

theorem family_floatMark (x : Binary64) : (floatMark x).family = .number := by
  cases x <;> rfl

theorem family_of_mark? {a : Value} {mark : Mark} (marked : a.mark? = some mark) :
    mark.family = a.family := by
  cases a with
  | float x =>
      cases marked
      exact family_floatMark x
  | pair a b =>
      obtain ⟨_, -, marked⟩ := Option.bind_eq_some_iff.1 marked
      obtain ⟨_, -, rfl⟩ := Option.map_eq_some_iff.1 marked
      rfl
  | list _ | set _ | map _ => cases marked
  | _ =>
      cases marked
      rfl

/-- Truth values and numbers are compared as numbers. -/
theorem same_iff_of_number {a b : Value} (number : a.family = .number)
    (number' : b.family = .number) : a.same b = true ↔ a.mark? = b.mark? := by
  have numeric {v : Value} (number : v.family = .number) :
      ∃ x, v.numeric? = some x ∧ v.mark? = some x.mark := by
    cases v with
    | bool b => exact ⟨_, rfl, by cases b <;> simp [mark?, Numeric.mark]⟩
    | int n => exact ⟨_, rfl, rfl⟩
    | float x => exact ⟨_, rfl, rfl⟩
    | _ => cases number
  obtain ⟨x, readA, markA⟩ := numeric number
  obtain ⟨y, readB, markB⟩ := numeric number'
  have compared : a.same b = x.same y := by
    cases a <;> try cases number
    all_goals
      cases b <;> try cases number'
      all_goals
        cases readA
        cases readB
        rfl
  rw [markA, markB, compared, Option.some.injEq]
  exact Numeric.same_iff x y

/-- **Keys are the same if they have the same mark.**  One of the values being a key is enough. -/
theorem same_iff_mark? (a b : Value) (known : a.IsKey ∨ b.IsKey) :
    a.same b = true ↔ a.mark? = b.mark? := by
  by_cases together : a.family = b.family
  · match a with
    | .bool _ | .int _ | .float _ => exact same_iff_of_number rfl together.symm
    | .null =>
        cases b with
        | null => exact iff_of_true rfl rfl
        | _ => cases together
    | .text s =>
        cases b with
        | text t => simp [same, sameScalar, mark?]
        | _ => cases together
    | .bytes s =>
        cases b with
        | bytes t => simp [same, sameScalar, mark?]
        | _ => cases together
    | .date s =>
        cases b with
        | date t => simp [same, sameScalar, mark?]
        | _ => cases together
    | .time s =>
        cases b with
        | time t => simp [same, sameScalar, sameTime, mark?]
        | _ => cases together
    | .pair a₁ a₂ =>
        cases b with
        | pair b₁ b₂ =>
            rw [isKey_pair, isKey_pair] at known
            have first := same_iff_mark? a₁ b₁ (known.imp And.left And.left)
            have second := same_iff_mark? a₂ b₂ (known.imp And.right And.right)
            rw [same, Bool.and_eq_true, first, second, mark?, mark?]
            rcases known with ⟨known₁, known₂⟩ | ⟨known₁, known₂⟩
            all_goals
              obtain ⟨mark₁, marked₁⟩ := known₁.marked
              obtain ⟨mark₂, marked₂⟩ := known₂.marked
              rw [marked₁, marked₂]
            · cases b₁.mark? <;> cases b₂.mark? <;> simp
            · cases a₁.mark? <;> cases a₂.mark? <;> simp
        | _ => cases together
    | .list _ =>
        cases b with
        | list _ => rcases known with known | known <;> cases known
        | _ => cases together
    | .set _ =>
        cases b with
        | set _ => rcases known with known | known <;> cases known
        | _ => cases together
    | .map _ =>
        cases b with
        | map _ => rcases known with known | known <;> cases known
        | _ => cases together
  · refine iff_of_false (fun same => together (family_of_same same)) fun marks => ?_
    obtain ⟨mark, markA, markB⟩ : ∃ mark, a.mark? = some mark ∧ b.mark? = some mark := by
      rcases known with known | known
      · obtain ⟨mark, marked⟩ := known.marked
        exact ⟨mark, marked, marks ▸ marked⟩
      · obtain ⟨mark, marked⟩ := known.marked
        exact ⟨mark, marks.trans marked, marked⟩
    exact together ((family_of_mark? markA).symm.trans (family_of_mark? markB))

/-- A key is found again. -/
theorem IsKey.self {key : Value} (isKey : key.IsKey) : key.same key = true :=
  (same_iff_mark? key key (.inl isKey)).2 rfl

section Same

variable {a b c : Value}

/-- What equals a key is one. -/
theorem isKey_of_same (same : a.same b = true) (known : a.IsKey ∨ b.IsKey) : a.IsKey ∧ b.IsKey := by
  have marks := (same_iff_mark? a b known).1 same
  rcases known with known | known
  · obtain ⟨mark, marked⟩ := known.marked
    exact ⟨known, isKey_of_marked (marks ▸ marked)⟩
  · obtain ⟨mark, marked⟩ := known.marked
    exact ⟨isKey_of_marked (marks.trans marked), known⟩

theorem same_symm (known : a.IsKey ∨ b.IsKey) (same : a.same b = true) : b.same a = true :=
  (same_iff_mark? b a known.symm).2 ((same_iff_mark? a b known).1 same).symm

theorem same_trans (known : a.IsKey ∨ b.IsKey) (first : a.same b = true)
    (second : b.same c = true) : a.same c = true := by
  have keys := isKey_of_same first known
  exact (same_iff_mark? a c (.inl keys.1)).2
    (((same_iff_mark? a b known).1 first).trans ((same_iff_mark? b c (.inl keys.2)).1 second))

end Same

/-! ## Looking up behind writing -/

section Entries

variable {entries : List Entry} {key other v : Value}

theorem lookupIn_cons (entry : Entry) (rest : List Entry) (key : Value) :
    lookupIn (entry :: rest) key =
      if entry.1.same key = true then some entry.2 else lookupIn rest key := by
  rw [lookupIn, List.find?_cons]
  cases entry.1.same key <;> rfl

theorem lookupIn_eq_none_iff :
    lookupIn entries key = none ↔ ∀ entry ∈ entries, ¬ entry.1.same key = true := by
  rw [lookupIn, Option.map_eq_none_iff, List.find?_eq_none]

/-- The same is found at keys that are the same. -/
theorem lookupIn_congr (known : key.IsKey ∨ other.IsKey) (same : key.same other = true) :
    lookupIn entries key = lookupIn entries other := by
  have keys := isKey_of_same same known
  induction entries with
  | nil => rfl
  | cons entry rest ih =>
      have alike : entry.1.same key = true ↔ entry.1.same other = true := by
        constructor
        · intro first
          exact same_trans (.inr keys.1) first same
        · intro first
          exact same_trans (.inr keys.2) first (same_symm known same)
      rw [lookupIn_cons, lookupIn_cons, ih]
      exact if_congr alike rfl rfl

/-- **What was written at a key is found there, and everything else where it was.** -/
theorem lookupIn_insertIn (known : key.IsKey ∨ other.IsKey) (entries : List Entry) (v : Value) :
    lookupIn (insertIn entries key v) other =
      if key.same other = true then some v else lookupIn entries other := by
  induction entries with
  | nil => exact lookupIn_cons (key, v) [] other
  | cons entry rest ih =>
      rw [insertIn]
      by_cases here : entry.1.same key = true
      · rw [if_pos here, lookupIn_cons, lookupIn_cons]
        by_cases same : key.same other = true
        · have keys := isKey_of_same same known
          rw [if_pos same, if_pos (same_trans (.inr keys.1) here same)]
        · have apart : ¬ entry.1.same other = true := by
            intro first
            rcases known with known | known
            · exact same (same_trans (.inl known) (same_symm (.inr known) here) first)
            · have keys := isKey_of_same first (.inr known)
              exact same (same_trans (.inr keys.1) (same_symm (.inl keys.1) here) first)
          rw [if_neg same, if_neg apart, if_neg apart]
      · rw [if_neg here, lookupIn_cons, lookupIn_cons, ih]
        by_cases first : entry.1.same other = true
        · have apart : ¬ key.same other = true := by
            intro same
            have keys := isKey_of_same same known
            exact here (same_trans (.inr keys.2) first (same_symm known same))
          rw [if_pos first, if_neg apart, if_pos first]
        · rw [if_neg first, if_neg first]

/-- Writing what is there already changes nothing. -/
theorem insertIn_of_lookupIn (found : lookupIn entries key = some v) :
    insertIn entries key v = entries := by
  induction entries with
  | nil => cases found
  | cons entry rest ih =>
      rw [lookupIn_cons] at found
      rw [insertIn]
      by_cases here : entry.1.same key = true
      · rw [if_pos here] at found ⊢
        cases found
        rfl
      · rw [if_neg here] at found ⊢
        rw [ih found]

/-- What is written at a new key stands behind all entries. -/
theorem insertIn_of_lookupIn_none (absent : lookupIn entries key = none) :
    insertIn entries key v = entries ++ [(key, v)] := by
  induction entries with
  | nil => rfl
  | cons entry rest ih =>
      rw [lookupIn_cons] at absent
      rw [insertIn]
      by_cases here : entry.1.same key = true
      · rw [if_pos here] at absent
        cases absent
      · rw [if_neg here] at absent ⊢
        rw [ih absent, List.cons_append]

theorem keys_insertIn_of_lookupIn (found : lookupIn entries key = some v) (w : Value) :
    (insertIn entries key w).map Prod.fst = entries.map Prod.fst := by
  induction entries with
  | nil => cases found
  | cons entry rest ih =>
      rw [lookupIn_cons] at found
      rw [insertIn]
      by_cases here : entry.1.same key = true
      · rw [if_pos here]
        rfl
      · rw [if_neg here] at found ⊢
        rw [List.map_cons, List.map_cons, ih found]

end Entries

/-! ## Mappings all the way down -/

/-- No key occurs twice. -/
def Apart (entries : List Entry) : Prop :=
  entries.Pairwise fun first second => ¬ first.1.same second.1 = true

theorem apart_iff_keys {entries : List Entry} :
    Apart entries ↔ (entries.map Prod.fst).Pairwise fun first second => ¬ first.same second = true := by
  rw [List.pairwise_map, Apart]

/-- Writing keeps the keys apart, of whatever kind they are. -/
theorem Apart.insertIn {entries : List Entry} (apart : Apart entries) (key v : Value) :
    Apart (insertIn entries key v) := by
  cases present : lookupIn entries key with
  | none =>
      rw [insertIn_of_lookupIn_none present]
      refine List.pairwise_append.2 ⟨apart, List.pairwise_singleton _ _, ?_⟩
      intro entry member new among
      cases List.mem_singleton.1 among
      exact lookupIn_eq_none_iff.1 present entry member
  | some w =>
      rw [apart_iff_keys, keys_insertIn_of_lookupIn present]
      exact apart_iff_keys.1 apart

/-- The keys are of a certain kind and no key occurs twice, and so it is in the mappings behind the
keys. -/
inductive WellKeyed (admits : Value → Prop) : List Entry → Prop where
  | intro {entries : List Entry} (admitted : ∀ entry ∈ entries, admits entry.1)
    (apart : Apart entries)
    (below : ∀ entry ∈ entries, ∀ inner, entry.2 = .map inner → WellKeyed admits inner) :
    WellKeyed admits entries

/-- The value at the end of a path of keys. -/
def follow : Value → List Value → Option Value
  | v, [] => some v
  | .map entries, key :: path => (lookupIn entries key).bind fun v => follow v path
  | _, _ :: _ => none

theorem follow_cons_eq_some {v w key : Value} {path : List Value} :
    follow v (key :: path) = some w ↔
      ∃ entries x, v = .map entries ∧ lookupIn entries key = some x ∧ follow x path = some w := by
  constructor
  · intro found
    cases v with
    | map entries =>
        obtain ⟨x, first, behind⟩ := Option.bind_eq_some_iff.1 found
        exact ⟨entries, x, rfl, first, behind⟩
    | _ => cases found
  · rintro ⟨entries, x, rfl, first, behind⟩
    exact Option.bind_eq_some_iff.2 ⟨x, first, behind⟩

/-- Mappings that are found in such a mapping are such mappings. -/
theorem WellKeyed.found {admits : Value → Prop} {entries : List Entry} {key v : Value}
    (mapping : WellKeyed admits entries) (found : lookupIn entries key = some v) :
    ∀ inner, v = .map inner → WellKeyed admits inner := by
  obtain ⟨_, _, below⟩ := mapping
  obtain ⟨_, member, -⟩ := mem_of_lookupIn found
  exact below _ member

/-- An entry is found at its key if no key occurs twice. -/
theorem lookupIn_of_mem {entries : List Entry} {key v : Value} (apart : Apart entries)
    (isKey : key.IsKey) (member : (key, v) ∈ entries) : lookupIn entries key = some v := by
  induction entries with
  | nil => cases member
  | cons entry rest ih =>
      obtain ⟨fromFirst, amongRest⟩ := List.pairwise_cons.1 apart
      rw [lookupIn_cons]
      rcases List.mem_cons.1 member with rfl | behind
      · rw [if_pos isKey.self]
      · rw [if_neg (fromFirst _ behind)]
        exact ih amongRest behind

end Value

end LogAlert
