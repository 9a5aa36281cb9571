/-
# LogAlert.Proofs.Delivery.Groups -- the matches of a batch, row by row

Matches are found entry by entry and told rule by rule.  In between they are counted one after the
other (`tally`), and a rule takes its place when it is counted first.  Here it is said what comes of
that without any counting: each rule stands where it occurs first among the matches, with the number
of its occurrences (`foldl_tally`).

For a batch that is evaluated against rows of the store, the matches are those of the rows, in the
order of the entries and of the rows (`rowsByMatch`).  If rows are told apart by the identifiers of
their rules, then there is one group for each row that matches an entry, and it counts the entries
that the row matches (`grouped_found`).
-/
import LogAlert.Proofs.Delivery.Targets
import LogAlert.Proofs.Engine.Recall

set_option autoImplicit false

namespace LogAlert

open List

/-- The rule of a row that can be built. -/
def DetectionRow.builtRule (row : DetectionRow) : Sigma.Rule := row.built?.getD default

/-- The rule of the row holds of the entry. -/
def DetectionRow.matches (caseSensitive : Bool) (row : DetectionRow) (entry : LogEntry) : Bool :=
  row.compiled?.any fun compiled => Engine.isMatch (compiled.holds caseSensitive entry entry.fields)

/-! ## First occurrences -/

section Occurrences

variable {α : Type} {same : α → α → Bool}

theorem eraseDupsBy_sublist (same : α → α → Bool) : ∀ xs : List α, xs.eraseDupsBy same <+ xs
  | [] => nil_sublist []
  | x :: xs => by
      rw [eraseDupsBy_cons]
      exact ((eraseDupsBy_sublist same _).trans filter_sublist).cons_cons x
termination_by xs => xs.length
decreasing_by exact Nat.lt_succ_of_le (length_filter_le ..)

/-- Every key occurs once among the first occurrences. -/
theorem nodup_firstOccurrences (key : α → String) : ∀ xs : List α,
    ((xs.eraseDupsBy fun x y => key x == key y).map key).Nodup
  | [] => nodup_nil
  | x :: xs => by
      rw [eraseDupsBy_cons, map_cons]
      refine nodup_cons.2 ⟨fun again => ?_, nodup_firstOccurrences key _⟩
      obtain ⟨y, left, same⟩ := mem_map.1 again
      have apart := (mem_filter.1 ((eraseDupsBy_sublist ..).subset left)).2
      simp [same] at apart
termination_by xs => xs.length
decreasing_by exact Nat.lt_succ_of_le (length_filter_le ..)

/-- No key is lost. -/
theorem exists_firstOccurrence (key : α → String) : ∀ xs : List α, ∀ x ∈ xs,
    ∃ y ∈ xs.eraseDupsBy fun x y => key x == key y, key y = key x
  | [], _, member => nomatch member
  | first :: xs, x, member => by
      rw [eraseDupsBy_cons]
      by_cases same : key x = key first
      · exact ⟨first, mem_cons_self, same.symm⟩
      · have behind : x ∈ xs := by
          rcases mem_cons.1 member with rfl | behind
          · exact absurd rfl same
          · exact behind
        obtain ⟨y, left, same'⟩ := exists_firstOccurrence key
          (xs.filter fun y => decide ((key y == key first) = false)) x
          (mem_filter.2 ⟨behind, by simpa using same⟩)
        exact ⟨y, mem_cons_of_mem _ left, same'⟩
termination_by xs => xs.length
decreasing_by exact Nat.lt_succ_of_le (length_filter_le ..)

end Occurrences

namespace Delivery

/-! ## Counting -/

section Counting

variable {α : Type} {rule : α → Sigma.Rule} {same : α → α → Bool}

/-- A group counts the rules with its identifier, and the others are counted behind it. -/
theorem foldl_tally_cons (rule : α → Sigma.Rule) (group : RuleMatches) (groups : List RuleMatches)
    (xs : List α) :
    xs.foldl (fun groups x => tally groups (rule x)) (group :: groups) =
      ⟨group.rule, group.count + xs.countP fun x => group.rule.id = (rule x).id⟩ ::
        (xs.filter fun x => group.rule.id ≠ (rule x).id).foldl
          (fun groups x => tally groups (rule x)) groups := by
  induction xs generalizing group groups with
  | nil => rfl
  | cons x xs ih =>
      rw [foldl_cons, tally]
      by_cases own : group.rule.id = (rule x).id
      · rw [if_pos own, ih]
        simp [own, Nat.add_assoc, Nat.add_comm 1]
      · rw [if_neg own, ih]
        simp [own]

/-- **Each rule stands where it occurs first, with the number of its occurrences.** -/
theorem foldl_tally : ∀ xs : List α,
    (∀ x ∈ xs, ∀ y ∈ xs, same x y = true ↔ (rule x).id = (rule y).id) →
      xs.foldl (fun groups x => tally groups (rule x)) [] =
        (xs.eraseDupsBy same).map fun x => ⟨rule x, xs.countP (same x)⟩
  | [], _ => rfl
  | x :: xs, tells => by
      obtain ⟨first, others⟩ := forall_mem_cons.1 tells
      have itself : same x x = true := (first x mem_cons_self).2 rfl
      have different : (xs.filter fun y => (rule x).id ≠ (rule y).id) =
          xs.filter fun y => decide (same y x = false) := by
        refine filter_congr fun y member => decide_eq_decide.2 ?_
        rw [← Bool.not_eq_true, others y member x mem_cons_self]
        exact not_congr eq_comm
      have rest := foldl_tally (xs.filter fun y => decide (same y x = false))
        fun y left z left' => others y (mem_filter.1 left).1 z
          (mem_cons_of_mem x (mem_filter.1 left').1)
      rw [foldl_cons, tally, foldl_tally_cons, different, rest, eraseDupsBy_cons, map_cons]
      congr 1
      · rw [countP_cons_of_pos itself, Nat.add_comm]
        have counted : (xs.countP fun y => (rule x).id = (rule y).id) = xs.countP (same x) :=
          countP_congr fun y member => by
            rw [decide_eq_true_iff, first y (mem_cons_of_mem x member)]
        rw [counted]
      · refine map_congr_left fun y left => ?_
        obtain ⟨member, apart⟩ := mem_filter.1 ((eraseDupsBy_sublist ..).subset left)
        have apart : same y x = false := of_decide_eq_true apart
        have apart' : ∀ z ∈ xs, same y z = true → same z x = false := by
          intro z member' alike
          rw [← Bool.not_eq_true, others z member' x mem_cons_self]
          intro again
          have alike' := (others y member z (mem_cons_of_mem x member')).1 alike
          rw [(others y member x mem_cons_self).2 (alike'.trans again)] at apart
          cases apart
        have kept : (xs.countP fun z => same y z && decide (same z x = false)) =
            xs.countP (same y) :=
          countP_congr fun z member' => by
            rw [Bool.and_eq_true, decide_eq_true_iff, and_iff_left_of_imp (apart' z member')]
        rw [countP_cons_of_neg (Bool.not_eq_true _ ▸ apart), countP_filter, kept]
termination_by xs => xs.length
decreasing_by exact Nat.lt_succ_of_le (length_filter_le ..)

end Counting

/-! ## Rows -/

/-- The matches of rows: for each entry the rows that match it, in their order. -/
def rowMatches (caseSensitive : Bool) (entries : List LogEntry) (rows : List DetectionRow) :
    List DetectionRow :=
  entries.flatMap fun entry => rows.filter fun row => row.matches caseSensitive entry

/-- The rows that match an entry, each where it matches first. -/
def rowsByMatch (caseSensitive : Bool) (entries : List LogEntry) (rows : List DetectionRow) :
    List DetectionRow :=
  (rowMatches caseSensitive entries rows).eraseDupsBy fun row other => row.id == other.id

variable {caseSensitive : Bool} {now : Time.Instant} {entries : List LogEntry}
  {rows : List DetectionRow} {row : DetectionRow}

theorem mem_rowMatches : row ∈ rowMatches caseSensitive entries rows ↔
    row ∈ rows ∧ 0 < entries.countP (row.matches caseSensitive) := by
  simp [rowMatches, countP_pos_iff, and_left_comm]

theorem mem_of_mem_rowsByMatch (matched : row ∈ rowsByMatch caseSensitive entries rows) :
    row ∈ rows :=
  (mem_rowMatches.1 ((eraseDupsBy_sublist ..).subset matched)).1

/-- **Each row that matches an entry is there once**, and no other. -/
theorem rowsByMatch_perm (distinct : (rows.map (·.id)).Nodup) :
    rowsByMatch caseSensitive entries rows ~
      rows.filter fun row => 0 < entries.countP (row.matches caseSensitive) := by
  have once : (rowsByMatch caseSensitive entries rows).Nodup :=
    Nodup.of_map _ (nodup_firstOccurrences DetectionRow.id _)
  refine (perm_ext_iff_of_nodup once (Nodup.of_map _ distinct |>.filter _)).2 fun row => ?_
  rw [mem_filter, decide_eq_true_iff, ← mem_rowMatches]
  constructor
  · exact fun matched => (eraseDupsBy_sublist ..).subset matched
  · intro matched
    obtain ⟨first, member, same⟩ := exists_firstOccurrence DetectionRow.id _ row matched
    exact inj_on_of_nodup_map distinct (mem_of_mem_rowsByMatch member)
      (mem_rowMatches.1 matched).1 same ▸ member

/-- A row that is left in counts once. -/
theorem countP_filter_own (distinct : (rows.map (·.id)).Nodup) (member : row ∈ rows)
    (p : DetectionRow → Bool) :
    (rows.filter p).countP (fun other => row.id == other.id) = if p row then 1 else 0 := by
  have once : ((rows.filter p).map (·.id)).Nodup := distinct.sublist (filter_sublist.map _)
  have left : row.id ∈ (rows.filter p).map (·.id) ↔ p row = true := by
    refine ⟨fun named => ?_, fun holds => mem_map_of_mem (mem_filter.2 ⟨member, holds⟩)⟩
    obtain ⟨other, inRest, same⟩ := mem_map.1 named
    obtain ⟨inRows, holds⟩ := mem_filter.1 inRest
    exact inj_on_of_nodup_map distinct inRows member same ▸ holds
  calc (rows.filter p).countP (fun other => row.id == other.id)
      = ((rows.filter p).map (·.id)).count row.id := by
        rw [count_eq_countP, countP_map]
        exact countP_congr fun other _ => by rw [Function.comp, beq_iff_eq, beq_iff_eq, eq_comm]
    _ = if row.id ∈ (rows.filter p).map (·.id) then 1 else 0 := once.count
    _ = if p row then 1 else 0 := if_congr left rfl rfl

/-- A row has as many matches as there are entries that it matches. -/
theorem countP_rowMatches (distinct : (rows.map (·.id)).Nodup) (member : row ∈ rows) :
    (rowMatches caseSensitive entries rows).countP (fun other => row.id == other.id) =
      entries.countP (row.matches caseSensitive) := by
  induction entries with
  | nil => rfl
  | cons entry entries ih =>
      rw [rowMatches, flatMap_cons, countP_append, countP_filter_own distinct member, countP_cons,
        ← ih, Nat.add_comm]
      rfl

/-- The matches that are found are those of the rows. -/
theorem map_matching (caseSensitive : Bool) (entry : LogEntry) (rows : List DetectionRow) :
    (Engine.matching caseSensitive entry (rows.filterMap DetectionRow.built?)).map (·.rule) =
      (rows.filter fun row => row.matches caseSensitive entry).map DetectionRow.builtRule := by
  induction rows with
  | nil => rfl
  | cons row rows ih =>
      unfold Engine.matching at ih ⊢
      cases built : row.built? with
      | none => simp [DetectionRow.matches, DetectionRow.compiled?, built, ih]
      | some rule =>
          cases compiles : Engine.compiled? rule with
          | none => simp [DetectionRow.matches, DetectionRow.compiled?, built, compiles, ih]
          | some compiled =>
              have compiles' := toOption_eq_some.1 (Option.join_eq_some_iff.1 compiles)
              have own : compiled.rule = rule := Engine.rule_of_compile_eq_ok compiles'
              cases holds : Engine.isMatch (compiled.holds caseSensitive entry entry.fields) <;>
                simp [DetectionRow.matches, DetectionRow.compiled?, DetectionRow.builtRule, built,
                  compiles, holds, own, ih]

/-- **The groups of a batch.**  There is one for each row that matches an entry, in the order of the
first matches, and it counts the entries that the row matches. -/
theorem grouped_found (distinct : (rows.map (·.id)).Nodup)
    (apart : ∀ row ∈ rows, ∀ other ∈ rows, row.builtRule.id = other.builtRule.id → row = other)
    (now : Time.Instant) :
    grouped (Engine.found caseSensitive now entries (rows.filterMap DetectionRow.built?)) =
      (rowsByMatch caseSensitive entries rows).map fun row =>
        ⟨row.builtRule, entries.countP (row.matches caseSensitive)⟩ := by
  have rules : (Engine.found caseSensitive now entries
      (rows.filterMap DetectionRow.built?)).flatten.map (·.rule.rule) =
        (rowMatches caseSensitive entries rows).map DetectionRow.builtRule := by
    rw [Engine.found, ← flatMap_def, map_flatMap, rowMatches, map_flatMap]
    refine flatMap_congr fun entry _ => ?_
    rw [map_map, ← map_matching]
    rfl
  have tells : ∀ row ∈ rowMatches caseSensitive entries rows,
      ∀ other ∈ rowMatches caseSensitive entries rows,
        (row.id == other.id) = true ↔ row.builtRule.id = other.builtRule.id := by
    intro row matched other matched'
    have member := (mem_rowMatches.1 matched).1
    have member' := (mem_rowMatches.1 matched').1
    rw [beq_iff_eq]
    constructor
    · intro same
      rw [inj_on_of_nodup_map distinct member member' same]
    · intro same
      rw [apart row member other member' same]
  calc grouped (Engine.found caseSensitive now entries (rows.filterMap DetectionRow.built?))
      = ((rowMatches caseSensitive entries rows).map DetectionRow.builtRule).foldl tally [] := by
        rw [← rules, foldl_map]
        rfl
    _ = (rowMatches caseSensitive entries rows).foldl
          (fun groups row => tally groups row.builtRule) [] := foldl_map
    _ = (rowsByMatch caseSensitive entries rows).map fun row => ⟨row.builtRule,
          (rowMatches caseSensitive entries rows).countP fun other => row.id == other.id⟩ :=
        foldl_tally _ tells
    _ = (rowsByMatch caseSensitive entries rows).map fun row =>
          ⟨row.builtRule, entries.countP (row.matches caseSensitive)⟩ :=
        map_congr_left fun row matched => by
          rw [countP_rowMatches distinct (mem_of_mem_rowsByMatch matched)]

end Delivery

end LogAlert
