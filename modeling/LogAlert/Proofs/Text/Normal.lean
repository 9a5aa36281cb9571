/-
# LogAlert.Proofs.Text.Normal -- texts that are in their final form

Titles, conditions and the parts of field names are brought into a form in which they stay: without
blanks at the ends (`trim_trim`), in lower case (`lower_lower`) and split at the bars between them
(`split_joined`).  These forms do not disturb each other: lowering a text adds no blanks at its ends
(`trimmed_lower`) and no bars (`bar_not_mem_lower`).

For lower case the table has to be looked at: no run of it leads to a character of a run
(`lowerRuns_avoid`), to a blank or to a bar.
-/
import LogAlert.Text.Case
import LogAlert.Text.Search
import LogAlert.Value.Shown
import Mathlib.Data.List.DropRight

set_option autoImplicit false

namespace LogAlert.Text

/-! ## Blanks at the ends -/

/-- The first and the last of the characters, if there are any, are not blank. -/
structure Trimmed (cs : List Char) : Prop where
  head : ∀ c ∈ cs.head?, isBlank c = false
  last : ∀ c ∈ cs.getLast?, isBlank c = false

theorem trimChars_eq (cs : List Char) : trimChars cs = (cs.dropWhile isBlank).rdropWhile isBlank :=
  rfl

theorem head?_dropWhile {α : Type} (p : α → Bool) (cs : List α) :
    ∀ c ∈ (cs.dropWhile p).head?, p c = false := by
  intro c first
  cases kept : cs.dropWhile p with
  | nil => simp [kept] at first
  | cons d rest =>
      rw [kept] at first
      cases first
      have stops := List.head_dropWhile_not p (l := cs) (by simp [kept])
      simpa [kept] using stops

theorem trimmed_trimChars (cs : List Char) : Trimmed (trimChars cs) := by
  refine ⟨fun c first => ?_, fun c last => ?_⟩
  · obtain ⟨rest, split⟩ := List.rdropWhile_prefix isBlank (cs.dropWhile isBlank)
    refine head?_dropWhile isBlank cs c ?_
    rw [trimChars_eq] at first
    rw [← split, List.head?_append, Option.mem_def.1 first]
    rfl
  · rw [trimChars_eq, List.rdropWhile, List.getLast?_reverse] at last
    exact head?_dropWhile isBlank _ c last

theorem dropWhile_of_head? {p : Char → Bool} {cs : List Char} (stops : ∀ c ∈ cs.head?, p c = false) :
    cs.dropWhile p = cs := by
  cases cs with
  | nil => rfl
  | cons c rest => rw [List.dropWhile_cons_of_neg (by simp [stops c rfl])]

theorem Trimmed.trimChars_eq {cs : List Char} (trimmed : Trimmed cs) : trimChars cs = cs := by
  rw [trimChars, dropWhile_of_head? trimmed.head,
    dropWhile_of_head? (fun c last => trimmed.last c (by rwa [List.head?_reverse] at last)),
    List.reverse_reverse]

theorem trim_of_trimmed {s : String} (trimmed : Trimmed s.toList) : trim s = s := by
  rw [trim, trimmed.trimChars_eq, String.ofList_toList]

theorem trimmed_trim (s : String) : Trimmed (trim s).toList := by
  rw [trim, String.toList_ofList]
  exact trimmed_trimChars _

theorem trim_trim (s : String) : trim (trim s) = trim s := trim_of_trimmed (trimmed_trim s)

theorem mem_of_mem_trimChars {cs : List Char} {c : Char} (member : c ∈ trimChars cs) : c ∈ cs :=
  (List.dropWhile_suffix _).subset ((List.rdropWhile_prefix _ _).subset member)

theorem all_dropWhile (p : Char → Bool) (cs : List Char) : (cs.dropWhile p).all p = cs.all p := by
  induction cs with
  | nil => rfl
  | cons c rest ih =>
      cases passed : p c
      · rw [List.dropWhile_cons_of_neg (by simp [passed])]
      · rw [List.dropWhile_cons_of_pos passed, ih, List.all_cons, passed, Bool.true_and]

/-- Trimming a text leaves it blank or not. -/
theorem isBlankText_trim (s : String) : isBlankText (trim s) = isBlankText s := by
  rw [isBlankText, isBlankText, trim, String.toList_ofList, trimChars, List.all_reverse,
    all_dropWhile, List.all_reverse, all_dropWhile]

/-! ## Lower case -/

namespace CaseRun

/-- The least code point that the run leads to. -/
def least (run : CaseRun) : Nat := (run.first + run.shift).toNat

/-- The greatest code point that the run leads to. -/
def most (run : CaseRun) : Nat := (run.last + run.shift).toNat

/-- The run leads to no code point that the other one covers: they are apart, or those of the other
one lie between. -/
def avoids (run other : CaseRun) : Bool :=
  Nat.blt run.most other.first || Nat.blt other.last run.least ||
    ((Nat.beq run.step 2 || Nat.beq run.first run.last) && Nat.beq other.step 2 &&
      Nat.beq ((run.least + other.first) % 2) 1)

/-- The run leads to no code point between these two. -/
def clears (run : CaseRun) (range : Nat × Nat) : Bool :=
  Nat.blt run.most range.1 || Nat.blt range.2 run.least

end CaseRun

/-- The blank characters, the bar and the dotted capital I, and the code points that are no
characters. -/
def keptOut : List (Nat × Nat) :=
  [(9, 13), (28, 32), (124, 124), (0x85, 0x85), (0xA0, 0xA0), (304, 304), (0x1680, 0x1680),
    (0x2000, 0x200A), (0x2028, 0x2029), (0x202F, 0x202F), (0x205F, 0x205F), (0x3000, 0x3000),
    (0xD800, 0xDFFF)]

theorem lowerRuns_avoid :
    (lowerRuns.all fun run => lowerRuns.all fun other => run.avoids other) = true := by
  decide +kernel

theorem lowerRuns_clear :
    (lowerRuns.all fun run => keptOut.all run.clears && Nat.ble run.most 0x10FFFF &&
      Nat.ble 1 run.least) = true := by
  decide +kernel

/-- No run of the table covers the code point. -/
def Uncovered (code : Nat) : Prop := ∀ run ∈ lowerRuns, run.covers code = false

namespace CaseRun

theorem covers_iff {run : CaseRun} {code : Nat} :
    run.covers code = true ↔
      run.first ≤ code ∧ code ≤ run.last ∧ (code - run.first) % run.step = 0 := by
  simp only [covers, Bool.and_eq_true, decide_eq_true_eq, beq_iff_eq, and_assoc]

variable {run : CaseRun} {code : Nat}

/-- Where a run leads to. -/
structure Leads (run : CaseRun) (code target : Nat) : Prop where
  member : run ∈ lowerRuns
  covers : run.covers code = true
  target : (target : Int) = code + run.shift

theorem leads_of_covers (member : run ∈ lowerRuns) (covers : run.covers code = true) :
    run.Leads code ((code : Int) + run.shift).toNat := by
  have clear := List.all_eq_true.1 lowerRuns_clear run member
  simp only [Bool.and_eq_true, Nat.ble_eq, least] at clear
  have within := covers_iff.1 covers
  exact ⟨member, covers, by omega⟩

namespace Leads

variable {target : Nat}

theorem keptOut (leads : run.Leads code target) :
    ∀ range ∈ keptOut, target < range.1 ∨ range.2 < target := by
  intro range listed
  have clear := List.all_eq_true.1 lowerRuns_clear run leads.member
  simp only [Bool.and_eq_true, List.all_eq_true] at clear
  have apart := clear.1.1 range listed
  simp only [clears, Bool.or_eq_true, Nat.blt_eq, least, most] at apart
  have within := covers_iff.1 leads.covers
  have target := leads.target
  omega

theorem isValidChar (leads : run.Leads code target) : target.isValidChar := by
  have clear := List.all_eq_true.1 lowerRuns_clear run leads.member
  simp only [Bool.and_eq_true, Nat.ble_eq, most] at clear
  have surrogates := leads.keptOut (0xD800, 0xDFFF) (by decide)
  have within := covers_iff.1 leads.covers
  have target := leads.target
  unfold Nat.isValidChar
  omega

/-- A run leads out of all runs. -/
theorem uncovered (leads : run.Leads code target) : Uncovered target := by
  intro other listed
  have apart := List.all_eq_true.1 (List.all_eq_true.1 lowerRuns_avoid run leads.member) other listed
  simp only [avoids, Bool.or_eq_true, Bool.and_eq_true, Nat.blt_eq, Nat.beq_eq, least, most]
    at apart
  have clear := List.all_eq_true.1 lowerRuns_clear run leads.member
  simp only [Bool.and_eq_true, Nat.ble_eq, least] at clear
  have within := covers_iff.1 leads.covers
  have target := leads.target
  by_contra covered
  have inside := covers_iff.1 (Bool.not_eq_false _ ▸ covered)
  rcases apart with (below | above) | ⟨⟨double | single, otherDouble⟩, parity⟩
  · omega
  · omega
  · rw [double] at within
    rw [otherDouble] at inside
    omega
  · rw [otherDouble] at inside
    omega

end Leads

end CaseRun

theorem toNat_ofNat {n : Nat} (valid : n.isValidChar) : (Char.ofNat n).toNat = n := by
  rw [Char.ofNat, dif_pos valid]
  rfl

theorem ascii_toLower : ∀ n < 128, (Char.ofNat n).toLower =
    if 65 ≤ n ∧ n ≤ 90 then Char.ofNat (n + 32) else Char.ofNat n := by
  decide

theorem lowerRuns_ascii : ∀ run ∈ lowerRuns, (run.first = 65 ∧ run.last = 90) ∨ 128 ≤ run.first := by
  decide +kernel

/-- The lower case of a character comes from a run of the table, or is the character itself. -/
theorem lowerChar_cases {c : Char} (dotless : c ≠ 'İ') :
    (lowerChar c = c ∧ Uncovered c.toNat) ∨
      ∃ run : CaseRun, run.Leads c.toNat (lowerChar c).toNat := by
  rw [lowerChar]
  split
  · rename_i ascii
    have lower := ascii_toLower c.toNat ascii
    rw [Char.ofNat_toNat] at lower
    by_cases capital : 65 ≤ c.toNat ∧ c.toNat ≤ 90
    · refine .inr ⟨⟨65, 90, 1, 32⟩, List.mem_cons_self, ?_, ?_⟩
      · exact CaseRun.covers_iff.2 ⟨capital.1, capital.2, Nat.mod_one _⟩
      · rw [lower, if_pos capital, toNat_ofNat (.inl (by omega))]
        rfl
    · rw [if_neg capital] at lower
      refine .inl ⟨lower, fun run listed => ?_⟩
      by_contra covered
      have inside := CaseRun.covers_iff.1 (Bool.not_eq_false _ ▸ covered)
      have bounds := lowerRuns_ascii run listed
      omega
  · split
    · rename_i run found
      have leads := CaseRun.leads_of_covers (List.mem_of_find?_eq_some found)
        (by simpa using List.find?_some found)
      refine .inr ⟨run, leads.member, leads.covers, ?_⟩
      rw [toNat_ofNat leads.isValidChar]
      exact leads.target
    · rename_i none
      exact .inl ⟨rfl, fun run listed => by simpa using List.find?_eq_none.1 none run listed⟩

/-- The character is its own lower case, wherever it stands. -/
structure Lowered (c : Char) : Prop where
  sigma : c ≠ 'Σ'
  chars : lowerChars c = [c]

theorem lowered_of_uncovered {c : Char} (dotless : c ≠ 'İ') (uncovered : Uncovered c.toNat) :
    Lowered c := by
  constructor
  · rintro rfl
    have listed : (lowerRuns.any fun run => run.covers 931) = true := by decide +kernel
    obtain ⟨run, member, covers⟩ := List.any_eq_true.1 listed
    exact Bool.noConfusion (covers.symm.trans (uncovered run member))
  · rw [lowerChars, if_neg dotless]
    rcases lowerChar_cases dotless with ⟨same, -⟩ | ⟨run, leads⟩
    · rw [same]
    · exact absurd leads.covers (by simp [uncovered run leads.member])

/-- What one character becomes: it is in lower case, and no bar and no blank is made. -/
structure LowerOf (c d : Char) : Prop where
  lowered : Lowered d
  visible : isBlank c = false → isBlank d = false
  bar : c ≠ '|' → d ≠ '|'

theorem isBlank_of_keptOut {d : Char}
    (outside : ∀ range ∈ keptOut, d.toNat < range.1 ∨ range.2 < d.toNat) : isBlank d = false := by
  simp only [keptOut, List.forall_mem_cons] at outside
  simp only [isBlank, Bool.or_eq_false_iff, Bool.and_eq_false_iff, decide_eq_false_iff_not,
    beq_eq_false_iff_ne]
  omega

theorem lowerOf_lowerChar {c : Char} (dotless : c ≠ 'İ') : LowerOf c (lowerChar c) := by
  rcases lowerChar_cases dotless with ⟨same, uncovered⟩ | ⟨run, leads⟩
  · rw [same]
    exact ⟨lowered_of_uncovered dotless uncovered, id, id⟩
  · have outside := leads.keptOut
    have differs {d : Char} (listed : (d.toNat, d.toNat) ∈ keptOut) : lowerChar c ≠ d := by
      intro same
      have apart := outside _ listed
      rw [same] at apart
      omega
    exact ⟨lowered_of_uncovered (differs (by decide)) leads.uncovered,
      fun _ => isBlank_of_keptOut outside, fun _ => differs (by decide)⟩

/-- What one character of a text becomes, between those before it and those behind it. -/
def lowerPiece (before : List Char) (c : Char) (rest : List Char) : List Char :=
  if c = 'Σ' then [if startsCased before && !startsCased rest then 'ς' else 'σ'] else lowerChars c

theorem lowerAfter_cons (before : List Char) (c : Char) (rest : List Char) :
    lowerAfter before (c :: rest) = lowerPiece before c rest ++ lowerAfter (c :: before) rest := rfl

theorem lowerPiece_spec (before : List Char) (c : Char) (rest : List Char) :
    lowerPiece before c rest ≠ [] ∧ ∀ d ∈ lowerPiece before c rest, LowerOf c d := by
  have small {d : Char} (dotless : d ≠ 'İ') (same : lowerChar d = d) (visible : isBlank d = false)
      (bar : d ≠ '|') : LowerOf c d := by
    have lower := lowerOf_lowerChar dotless
    rw [same] at lower
    exact ⟨lower.lowered, fun _ => visible, fun _ => bar⟩
  unfold lowerPiece
  split
  · refine ⟨List.cons_ne_nil _ _, fun d member => ?_⟩
    rw [List.mem_singleton.1 member]
    split
    · exact small (by decide) (by decide +kernel) (by decide) (by decide)
    · exact small (by decide) (by decide +kernel) (by decide) (by decide)
  · unfold lowerChars
    split
    · refine ⟨List.cons_ne_nil _ _, fun d member => ?_⟩
      simp only [List.mem_cons, List.not_mem_nil, or_false] at member
      rcases member with rfl | rfl
      · exact small (by decide) (by decide +kernel) (by decide) (by decide)
      · exact small (by decide) (by decide +kernel) (by decide) (by decide)
    · rename_i dotless
      refine ⟨List.cons_ne_nil _ _, fun d member => ?_⟩
      rw [List.mem_singleton.1 member]
      exact lowerOf_lowerChar dotless

/-- Every character of the lower case comes from one of the text. -/
theorem mem_lowerAfter {before cs : List Char} {d : Char} (member : d ∈ lowerAfter before cs) :
    ∃ c ∈ cs, LowerOf c d := by
  induction cs generalizing before with
  | nil => cases member
  | cons c rest ih =>
      rw [lowerAfter_cons] at member
      rcases List.mem_append.1 member with here | behind
      · exact ⟨c, List.mem_cons_self, (lowerPiece_spec before c rest).2 d here⟩
      · obtain ⟨c', inRest, lower⟩ := ih behind
        exact ⟨c', List.mem_cons_of_mem _ inRest, lower⟩

theorem lowerAfter_of_lowered {before cs : List Char} (lowered : ∀ c ∈ cs, Lowered c) :
    lowerAfter before cs = cs := by
  induction cs generalizing before with
  | nil => rfl
  | cons c rest ih =>
      obtain ⟨sigma, chars⟩ := lowered c List.mem_cons_self
      rw [lowerAfter_cons, lowerPiece, if_neg sigma, chars,
        ih fun d member => lowered d (List.mem_cons_of_mem _ member), List.singleton_append]

theorem lower_lower (s : String) : lower (lower s) = lower s := by
  have lowered : ∀ d ∈ lowerAfter [] s.toList, Lowered d := by
    intro d member
    obtain ⟨c, -, lower⟩ := mem_lowerAfter member
    exact lower.lowered
  rw [lower, lower, String.toList_ofList, lowerAfter_of_lowered lowered]

theorem lowerAfter_ne_nil (before : List Char) (c : Char) (rest : List Char) :
    lowerAfter before (c :: rest) ≠ [] :=
  List.append_ne_nil_of_left_ne_nil (lowerPiece_spec before c rest).1 _

theorem last_lowerAfter {before cs : List Char} (visible : ∀ c ∈ cs.getLast?, isBlank c = false) :
    ∀ d ∈ (lowerAfter before cs).getLast?, isBlank d = false := by
  induction cs generalizing before with
  | nil => nofun
  | cons c rest ih =>
      intro d last
      rw [lowerAfter_cons] at last
      cases rest with
      | nil =>
          rw [lowerAfter, List.append_nil] at last
          exact ((lowerPiece_spec before c []).2 d (List.mem_of_getLast? last)).visible
            (visible c rfl)
      | cons c' rest =>
          rw [List.getLast?_append_of_ne_nil _ (lowerAfter_ne_nil _ _ _)] at last
          exact ih (by rwa [List.getLast?_cons_cons] at visible) d last

theorem trimmed_lower {s : String} (trimmed : Trimmed s.toList) : Trimmed (lower s).toList := by
  rw [lower, String.toList_ofList]
  refine ⟨fun d first => ?_, last_lowerAfter trimmed.last⟩
  cases chars : s.toList with
  | nil =>
      rw [chars] at first
      cases first
  | cons c rest =>
      obtain ⟨nonempty, lower⟩ := lowerPiece_spec [] c rest
      rw [chars, lowerAfter_cons, List.head?_append_of_ne_nil _ nonempty] at first
      exact (lower d (List.mem_of_mem_head? first)).visible (trimmed.head c (by rw [chars]; rfl))

/-- Lowering a text does not bring in a bar. -/
theorem bar_not_mem_lower {s : String} (bare : '|' ∉ s.toList) : '|' ∉ (lower s).toList := by
  rw [lower, String.toList_ofList]
  intro member
  obtain ⟨c, inText, lower⟩ := mem_lowerAfter member
  exact lower.bar (fun bar => bare (bar ▸ inText)) rfl

/-! ## Pieces -/

theorem splitChars_of_not_mem {separator : Char} {cs : List Char} (bare : separator ∉ cs) :
    splitChars separator cs = [cs] := by
  induction cs with
  | nil => rfl
  | cons c rest ih =>
      rw [List.mem_cons, not_or] at bare
      rw [splitChars, if_neg (Ne.symm bare.1), ih bare.2]

theorem splitChars_append {separator : Char} {cs : List Char} (bare : separator ∉ cs)
    (more : List Char) :
    splitChars separator (cs ++ separator :: more) = cs :: splitChars separator more := by
  induction cs with
  | nil => rw [List.nil_append, splitChars, if_pos rfl]
  | cons c rest ih =>
      rw [List.mem_cons, not_or] at bare
      rw [List.cons_append, splitChars, if_neg (Ne.symm bare.1), ih bare.2]

theorem splitChars_ne_nil (separator : Char) (cs : List Char) : splitChars separator cs ≠ [] := by
  cases cs with
  | nil => exact List.cons_ne_nil _ _
  | cons c rest =>
      rw [splitChars]
      split
      · exact List.cons_ne_nil _ _
      · split <;> exact List.cons_ne_nil _ _

/-- No separator is left in a piece. -/
theorem not_mem_of_mem_splitChars {separator : Char} {cs piece : List Char}
    (member : piece ∈ splitChars separator cs) : separator ∉ piece := by
  induction cs generalizing piece with
  | nil =>
      rw [splitChars, List.mem_singleton] at member
      exact member ▸ List.not_mem_nil
  | cons c rest ih =>
      rw [splitChars] at member
      split at member
      · rcases List.mem_cons.1 member with rfl | behind
        · exact List.not_mem_nil
        · exact ih behind
      · rename_i other
        split at member
        · rename_i none
          exact absurd none (splitChars_ne_nil _ _)
        · rename_i first pieces same
          rw [same] at ih
          rcases List.mem_cons.1 member with rfl | behind
          · rw [List.mem_cons, not_or]
            exact ⟨Ne.symm other, ih List.mem_cons_self⟩
          · exact ih (List.mem_cons_of_mem _ behind)

/-- Pieces that are joined at a separator are found again. -/
theorem splitChars_intercalate {separator : Char} {pieces : List (List Char)}
    (bare : ∀ piece ∈ pieces, separator ∉ piece) (nonempty : pieces ≠ []) :
    splitChars separator ([separator].intercalate pieces) = pieces := by
  induction pieces with
  | nil => exact absurd rfl nonempty
  | cons piece pieces ih =>
      have first := bare piece List.mem_cons_self
      cases pieces with
      | nil => rw [List.intercalate_singleton, splitChars_of_not_mem first]
      | cons next pieces =>
          rw [List.intercalate_cons_cons, List.append_assoc, List.singleton_append,
            splitChars_append first,
            ih (fun p member => bare p (List.mem_cons_of_mem _ member)) (List.cons_ne_nil _ _)]

theorem split_joined {pieces : List String} (bare : ∀ piece ∈ pieces, '|' ∉ piece.toList)
    (nonempty : pieces ≠ []) : split '|' (Value.joined "|" pieces) = pieces := by
  have chars : splitChars '|' (Value.joined "|" pieces).toList = pieces.map String.toList := by
    rw [Value.joined, String.toList_intercalate]
    refine splitChars_intercalate (fun piece member => ?_) (by simpa using nonempty)
    obtain ⟨s, inPieces, rfl⟩ := List.mem_map.1 member
    exact bare s inPieces
  rw [split, chars, List.map_map]
  exact (List.map_congr_left fun s _ => String.ofList_toList).trans (List.map_id pieces)

theorem bar_not_mem_of_mem_split {s piece : String} (member : piece ∈ split '|' s) :
    '|' ∉ piece.toList := by
  obtain ⟨cs, inPieces, rfl⟩ := List.mem_map.1 member
  rw [String.toList_ofList]
  exact not_mem_of_mem_splitChars inPieces

theorem bar_not_mem_trim {s : String} (bare : '|' ∉ s.toList) : '|' ∉ (trim s).toList := by
  rw [trim, String.toList_ofList]
  exact fun member => bare (mem_of_mem_trimChars member)

/-! ## Texts made of parts -/

theorem trimmed_of_visible {cs : List Char} (visible : ∀ c ∈ cs, isBlank c = false) : Trimmed cs :=
  ⟨fun c first => visible c (List.mem_of_mem_head? first),
    fun c last => visible c (List.mem_of_getLast? last)⟩

/-- What stands between texts without blanks at their ends does not matter. -/
theorem Trimmed.append {cs ds : List Char} (left : Trimmed cs) (right : Trimmed ds)
    (nonempty : cs ≠ []) (nonempty' : ds ≠ []) (between : List Char) :
    Trimmed (cs ++ between ++ ds) := by
  constructor
  · rw [List.append_assoc, List.head?_append_of_ne_nil _ nonempty]
    exact left.head
  · rw [List.getLast?_append_of_ne_nil _ nonempty']
    exact right.last

theorem Trimmed.not_blank {s : String} (trimmed : Trimmed s.toList) (nonempty : s.toList ≠ []) :
    isBlankText s = false := by
  obtain ⟨c, rest, same⟩ := List.exists_cons_of_ne_nil nonempty
  rw [isBlankText, same, List.all_cons, trimmed.head c (by rw [same]; rfl), Bool.false_and]

theorem trimmed_joined {separator : String} {parts : List String} (nonempty : parts ≠ [])
    (each : ∀ part ∈ parts, part.toList ≠ [] ∧ Trimmed part.toList) :
    (Value.joined separator parts).toList ≠ [] ∧
      Trimmed (Value.joined separator parts).toList := by
  induction parts with
  | nil => exact absurd rfl nonempty
  | cons part rest ih =>
      obtain ⟨some, trimmed⟩ := each part List.mem_cons_self
      cases rest with
      | nil => rwa [Value.joined, String.intercalate_singleton, and_iff_right some]
      | cons next rest =>
          obtain ⟨more, behind⟩ := ih (List.cons_ne_nil _ _)
            fun p member => each p (List.mem_cons_of_mem _ member)
          rw [Value.joined, String.intercalate_cons_of_ne_nil (List.cons_ne_nil _ _),
            String.toList_append, String.toList_append]
          exact ⟨List.append_ne_nil_of_right_ne_nil _ more, trimmed.append behind some more _⟩

end LogAlert.Text
