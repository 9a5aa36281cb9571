/-
# LogAlert.Proofs.Settings.Merge -- the laws of writing settings over others

What is found at a key after `merge` depends on what is found there above and below, and on nothing
else (`lookupIn_merge`): it is the upper value `onTop` of the lower one.  From this one law the others
follow by descending along the keys.  Settings that were written once change nothing when they are
written again, and along each path of keys the upper value wins where there is one, and the lower one
is kept where there is none (`merge_idempotent_upper_wins`).
-/
import LogAlert.Proofs.Value.Keys
import LogAlert.Settings.Merge

set_option autoImplicit false

namespace LogAlert.Settings

open Value (Entry lookupIn insertIn Apart WellKeyed IsKey follow)

/-- The value that stands where one is written over what is there. -/
def onTop : Option Value → Value → Value
  | some below, .null => below
  | some (.map below), .map upper => .map (merge below upper)
  | _, v => v

/-- The value is neither null nor a mapping. -/
def Plain (v : Value) : Prop := v ≠ .null ∧ ∀ entries, v ≠ .map entries

theorem null_or_map_or_plain (v : Value) : v = .null ∨ (∃ entries, v = .map entries) ∨ Plain v := by
  by_cases null : v = .null
  · exact .inl null
  by_cases map : ∃ entries, v = .map entries
  · exact .inr (.inl map)
  · exact .inr (.inr ⟨null, fun entries same => map ⟨entries, same⟩⟩)

/-- Such a value takes the place of any other. -/
theorem onTop_plain {v : Value} (plain : Plain v) (below : Option Value) : onTop below v = v := by
  unfold onTop
  split
  · exact absurd rfl plain.1
  · exact absurd rfl (plain.2 _)
  · rfl

theorem onTop_none (v : Value) : onTop none v = v := by
  cases v <;> rfl

/-- A mapping is merged with a mapping below it, and takes the place of anything else. -/
theorem onTop_map (below : Option Value) (upper : List Entry) :
    (∃ entries, below = some (.map entries) ∧
      onTop below (.map upper) = .map (merge entries upper)) ∨
    onTop below (.map upper) = .map upper := by
  unfold onTop
  split
  · rename_i null
    cases null
  · rename_i same
    cases same
    exact .inl ⟨_, rfl, rfl⟩
  · exact .inr rfl

/-! ## One entry -/

theorem mergeEntry_eq (base : List Entry) (key v : Value) :
    mergeEntry base key v = insertIn base key (onTop (lookupIn base key) v) := by
  cases found : lookupIn base key with
  | none => cases v <;> simp only [mergeEntry, found, onTop]
  | some below =>
      cases v with
      | null =>
          simp only [mergeEntry, found, onTop]
          exact (Value.insertIn_of_lookupIn found).symm
      | map upper => cases below <;> simp only [mergeEntry, found, onTop]
      | _ => cases below <;> simp only [mergeEntry, onTop]

theorem merge_cons (base : List Entry) (key v : Value) (rest : List Entry) :
    merge base ((key, v) :: rest) = merge (insertIn base key (onTop (lookupIn base key) v)) rest := by
  rw [merge, mergeEntry_eq]

/-- **What is found after merging**: the upper value over the lower one. -/
theorem lookupIn_merge {upper : List Entry} {key : Value} (apart : Apart upper)
    (known : ∀ entry ∈ upper, entry.1.IsKey ∨ key.IsKey) (base : List Entry) :
    lookupIn (merge base upper) key =
      (lookupIn upper key).elim (lookupIn base key) fun v => some (onTop (lookupIn base key) v) := by
  induction upper generalizing base with
  | nil =>
      rw [merge]
      rfl
  | cons entry rest ih =>
      obtain ⟨k, v⟩ := entry
      obtain ⟨fromFirst, amongRest⟩ := List.pairwise_cons.1 apart
      have knownFirst : k.IsKey ∨ key.IsKey := known _ List.mem_cons_self
      have knownRest : ∀ entry ∈ rest, entry.1.IsKey ∨ key.IsKey := by
        intro entry member
        exact known entry (List.mem_cons_of_mem _ member)
      rw [merge_cons, ih amongRest knownRest, Value.lookupIn_insertIn knownFirst,
        Value.lookupIn_cons]
      by_cases here : k.same key = true
      · have keys := Value.isKey_of_same here knownFirst
        have absent : lookupIn rest key = none := by
          rw [Value.lookupIn_eq_none_iff]
          intro entry member again
          apply fromFirst entry member
          exact Value.same_trans knownFirst here (Value.same_symm (.inr keys.2) again)
        rw [if_pos here, if_pos here, absent, Option.elim_none, Option.elim_some,
          Value.lookupIn_congr knownFirst here]
      · rw [if_neg here, if_neg here]

/-! ## Writing again -/

theorem merge_append {done rest : List Entry} (apart : Apart (done ++ rest)) :
    merge done rest = done ++ rest := by
  induction rest generalizing done with
  | nil => rw [merge, List.append_nil]
  | cons entry rest ih =>
      obtain ⟨key, v⟩ := entry
      have absent : lookupIn done key = none := by
        rw [Value.lookupIn_eq_none_iff]
        intro entry member
        exact (List.pairwise_append.1 apart).2.2 entry member _ List.mem_cons_self
      have moved : done ++ (key, v) :: rest = done ++ [(key, v)] ++ rest := List.append_cons ..
      rw [merge_cons, absent, onTop_none, Value.insertIn_of_lookupIn_none absent, ih (moved ▸ apart),
        moved]

/-- Over nothing, settings are themselves. -/
theorem merge_nil {upper : List Entry} (apart : Apart upper) : merge [] upper = upper :=
  merge_append apart

/-- Entries that change nothing one by one change nothing together. -/
theorem merge_eq_self {base upper : List Entry}
    (each : ∀ entry ∈ upper, mergeEntry base entry.1 entry.2 = base) : merge base upper = base := by
  induction upper with
  | nil => rw [merge]
  | cons entry rest ih =>
      rw [merge, each entry List.mem_cons_self]
      exact ih fun entry member => each entry (List.mem_cons_of_mem _ member)

/-- Writing a value again over what it has been written over changes nothing, if that is so for the
entries of a mapping. -/
theorem onTop_onTop {v : Value} (again : ∀ inner, v = .map inner →
      ∀ base, merge (merge base inner) inner = merge base inner)
    (self : ∀ inner, v = .map inner → merge inner inner = inner) (below : Option Value) :
    onTop (some (onTop below v)) v = onTop below v := by
  rcases null_or_map_or_plain v with rfl | ⟨inner, rfl⟩ | plain
  · cases below <;> rfl
  · rcases onTop_map below inner with ⟨base, rfl, merged⟩ | replaced
    · rw [merged]
      exact congrArg Value.map (again inner rfl base)
    · rw [replaced]
      exact congrArg Value.map (self inner rfl)
  · rw [onTop_plain plain, onTop_plain plain]

/-- **Settings that were written once change nothing when they are written again.** -/
theorem merge_merge {upper : List Entry} (mapping : WellKeyed IsKey upper) (base : List Entry) :
    merge (merge base upper) upper = merge base upper := by
  induction mapping generalizing base with
  | @intro upper isKey apart wellKeyed ih =>
      refine merge_eq_self fun entry member => ?_
      obtain ⟨key, v⟩ := entry
      have found : lookupIn upper key = some v :=
        Value.lookupIn_of_mem apart (isKey _ member) member
      have settled : onTop (some (onTop (lookupIn base key) v)) v = onTop (lookupIn base key) v := by
        refine onTop_onTop (fun inner same => ih _ member inner same) (fun inner same => ?_) _
        obtain ⟨-, apart, -⟩ := wellKeyed _ member inner same
        have onNothing := ih _ member inner same []
        rwa [merge_nil apart] at onNothing
      have merged : lookupIn (merge base upper) key = some (onTop (lookupIn base key) v) := by
        rw [lookupIn_merge apart (fun entry among => .inl (isKey entry among)), found,
          Option.elim_some]
      rw [mergeEntry_eq, merged, settled]
      exact Value.insertIn_of_lookupIn merged

/-! ## Along paths of keys -/

section Along

-- `admits` says which keys the upper settings may have.
variable {admits : Value → Prop} {v w below : Value}

theorem follow_merge_cons {upper : List Entry} (mapping : WellKeyed admits upper) {key : Value}
    (known : ∀ k, admits k → k.IsKey ∨ key.IsKey) (base : List Entry) (path : List Value) :
    follow (.map (merge base upper)) (key :: path) =
      (lookupIn upper key).elim ((lookupIn base key).bind fun below => follow below path)
        fun v => follow (onTop (lookupIn base key) v) path := by
  obtain ⟨admitted, apart, -⟩ := mapping
  rw [follow, lookupIn_merge apart fun entry member => known _ (admitted entry member)]
  cases lookupIn upper key <;> rfl

/-- An upper value that is neither null nor a mapping wins, wherever it stands. -/
theorem follow_onTop_plain {path : List Value}
    (mapping : ∀ inner, v = .map inner → WellKeyed admits inner)
    (known : ∀ key ∈ path, ∀ k, admits k → k.IsKey ∨ key.IsKey)
    (found : follow v path = some w) (plain : Plain w) (below : Option Value) :
    follow (onTop below v) path = some w := by
  induction path generalizing v below with
  | nil =>
      cases found
      rw [onTop_plain plain, follow]
  | cons key path ih =>
      obtain ⟨knownHere, knownBehind⟩ := List.forall_mem_cons.1 known
      obtain ⟨upper, x, rfl, first, behind⟩ := Value.follow_cons_eq_some.1 found
      rcases onTop_map below upper with ⟨base, rfl, merged⟩ | replaced
      · rw [merged, follow_merge_cons (mapping upper rfl) knownHere, first, Option.elim_some]
        exact ih ((mapping upper rfl).found first) knownBehind behind _
      · rw [replaced]
        exact found

/-- What is below is kept where the upper value stops, at an entry that is absent or null. -/
theorem follow_onTop_kept {front behind : List Value} {key : Value} {entries : List Entry}
    (mapping : ∀ inner, v = .map inner → WellKeyed IsKey inner)
    (stops : follow v front = some (.map entries))
    (blank : ∀ x, lookupIn entries key = some x → x = .null)
    (found : follow below (front ++ key :: behind) = some w) :
    follow (onTop (some below) v) (front ++ key :: behind) = some w := by
  induction front generalizing v below with
  | nil =>
      cases stops
      obtain ⟨base, y, rfl, firstBelow, behindBelow⟩ := Value.follow_cons_eq_some.1 found
      rw [List.nil_append, onTop, follow_merge_cons (mapping entries rfl) fun _ => .inl, firstBelow]
      cases first : lookupIn entries key with
      | none => exact behindBelow
      | some x =>
          cases blank x first
          exact behindBelow
  | cons k front ih =>
      obtain ⟨upper, x, rfl, first, behindUpper⟩ := Value.follow_cons_eq_some.1 stops
      obtain ⟨base, y, rfl, firstBelow, behindBelow⟩ := Value.follow_cons_eq_some.1 found
      rw [List.cons_append, onTop, follow_merge_cons (mapping upper rfl) fun _ => .inl, first,
        Option.elim_some, firstBelow]
      exact ih ((mapping upper rfl).found first) behindUpper behindBelow

end Along

/-- **Merging is idempotent, and the upper settings win.**  Settings written once change nothing when
they are written again.  Along every path of keys, an upper value that is neither null nor a mapping
is what is found, and where the upper settings stop at an entry that is absent or null, what is
below at the end of the path is kept. -/
theorem merge_idempotent_upper_wins {upper : List Entry} (mapping : WellKeyed IsKey upper)
    (base : List Entry) :
    merge (merge base upper) upper = merge base upper ∧
      ∀ path,
        (∀ v, follow (.map upper) path = some v → Plain v →
          follow (.map (merge base upper)) path = some v) ∧
        ∀ front key behind entries, path = front ++ key :: behind →
          follow (.map upper) front = some (.map entries) →
          (∀ v, lookupIn entries key = some v → v = .null) →
          ∀ w, follow (.map base) path = some w →
            follow (.map (merge base upper)) path = some w := by
  have wellKeyed : ∀ inner, Value.map upper = .map inner → WellKeyed IsKey inner := by
    rintro _ ⟨⟩
    exact mapping
  refine ⟨merge_merge mapping base, fun path => ⟨fun v found plain => ?_, ?_⟩⟩
  · exact follow_onTop_plain wellKeyed (fun _ _ _ => .inl) found plain (some (.map base))
  · rintro front key behind entries rfl stops blank w found
    exact follow_onTop_kept wellKeyed stops blank found

/-- A port is given and a host is left empty. -/
theorem merge_idempotent_nested :
    let below : Value := .map [(.text "host", .text "h"), (.text "port", .int 25)]
    let above : Value := .map [(.text "host", .null), (.text "port", .int 587)]
    let merged := merge [(.text "smtp", below)] [(.text "smtp", above)]
    merge merged [(.text "smtp", above)] = merged ∧
      follow (.map merged) [.text "smtp", .text "port"] = some (.int 587) ∧
      follow (.map merged) [.text "smtp", .text "host"] = some (.text "h") := by
  intro below above merged
  have inner : WellKeyed IsKey [(.text "host", .null), (.text "port", .int 587)] := by
    refine .intro (by decide) (by unfold Apart; decide) fun entry member nested same => ?_
    rcases List.mem_cons.1 member with rfl | member
    · cases same
    · cases List.mem_singleton.1 member
      cases same
  have mapping : WellKeyed IsKey [(.text "smtp", above)] := by
    refine .intro (by decide) (by unfold Apart; decide) fun entry member nested same => ?_
    cases List.mem_singleton.1 member
    cases same
    exact inner
  obtain ⟨again, along⟩ := merge_idempotent_upper_wins mapping [(.text "smtp", below)]
  refine ⟨again, (along _).1 _ rfl ⟨nofun, nofun⟩, ?_⟩
  exact (along _).2 [.text "smtp"] (.text "host") [] _ rfl rfl (by rintro _ ⟨⟩; rfl) _ rfl

end LogAlert.Settings
