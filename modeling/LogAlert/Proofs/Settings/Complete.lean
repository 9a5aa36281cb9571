/-
# LogAlert.Proofs.Settings.Complete -- which settings are complete

Settings are complete if each section of the defaults is a mapping in them and each default has a
value (`Covers`), so that no setting is looked up in vain.  Settings that leave out entries, or whole
sections, or leave them empty, become complete by being written over the defaults.  What does not is
a section with a value that is no mapping: that value takes the place of the whole section, and
nothing refuses it.  Loaded settings are complete exactly if no section is replaced in this way
(`load_covers_iff`); `scalar_section_not_covered` shows one that is.
-/
import LogAlert.Proofs.Settings.Merge
import LogAlert.Proofs.Yaml.Keys
import LogAlert.Settings.Config

set_option autoImplicit false

namespace LogAlert.Settings

open Value (Entry lookupIn WellKeyed IsKey OneOfEachKey follow)

/-- The value at the end of a path of names. -/
def setting (v : Value) (names : List String) : Option Value := follow v (names.map .text)

/-- The sections of one value are mappings in the other, and what has a value there has one here. -/
structure Covers (below v : Value) : Prop where
  sections : ∀ names entries, setting below names = some (.map entries) →
    ∃ given, setting v names = some (.map given)
  values : ∀ names w, setting below names = some w → ∃ given, setting v names = some given

/-- In place of a section stands a value that is neither null nor a mapping. -/
def ReplacesSection (below v : Value) : Prop :=
  ∃ names entries w, setting below names = some (.map entries) ∧ setting v names = some w ∧ Plain w

theorem setting_cons_eq_some {v w : Value} {name : String} {names : List String} :
    setting v (name :: names) = some w ↔
      ∃ entries x, v = .map entries ∧ lookupIn entries (.text name) = some x ∧
        setting x names = some w :=
  Value.follow_cons_eq_some

theorem covers_refl (v : Value) : Covers v v where
  sections _ entries found := ⟨entries, found⟩
  values _ w found := ⟨w, found⟩

/-! ## Writing over settings -/

theorem setting_merge_cons {upper : List Entry} (mapping : (Value.map upper).OneOfEachKey)
    (base : List Entry) (name : String) (names : List String) :
    setting (.map (merge base upper)) (name :: names) =
      (lookupIn upper (.text name)).elim
        ((lookupIn base (.text name)).bind fun below => setting below names)
        fun v => setting (onTop (lookupIn base (.text name)) v) names :=
  follow_merge_cons (mapping upper rfl) (fun _ _ => .inr (Value.isKey_text name)) base (names.map .text)

/-- If no section is replaced, each value is still there, and sections are mappings. -/
theorem setting_onTop {v below w : Value} {names : List String} (mapping : v.OneOfEachKey)
    (kept : ¬ ReplacesSection below v) (found : setting below names = some w) :
    ∃ given, setting (onTop (some below) v) names = some given ∧
      ∀ entries, w = .map entries → ∃ entries', given = .map entries' := by
  induction names generalizing v below with
  | nil =>
      cases found
      refine ⟨_, rfl, ?_⟩
      rintro entries rfl
      rcases null_or_map_or_plain v with rfl | ⟨upper, rfl⟩ | plain
      · exact ⟨entries, rfl⟩
      · exact ⟨merge entries upper, rfl⟩
      · exact absurd ⟨[], entries, v, rfl, rfl, plain⟩ kept
  | cons name names ih =>
      obtain ⟨base, x, rfl, first, behind⟩ := setting_cons_eq_some.1 found
      rcases null_or_map_or_plain v with rfl | ⟨upper, rfl⟩ | plain
      · exact ⟨w, found, fun entries same => ⟨entries, same⟩⟩
      · rw [onTop, setting_merge_cons mapping, first]
        cases given : lookupIn upper (.text name) with
        | none => exact ⟨w, behind, fun entries same => ⟨entries, same⟩⟩
        | some y =>
            refine ih ((mapping upper rfl).found given) ?_ behind
            rintro ⟨names', entries, z, isSection, there, plain⟩
            exact kept ⟨name :: names', entries, z,
              setting_cons_eq_some.2 ⟨base, x, rfl, first, isSection⟩,
              setting_cons_eq_some.2 ⟨upper, y, rfl, given, there⟩, plain⟩
      · exact absurd ⟨[], base, v, rfl, rfl, plain⟩ kept

/-- **What is written over settings covers them exactly if it replaces no section.** -/
theorem onTop_covers_iff {v below : Value} (mapping : v.OneOfEachKey) :
    Covers below (onTop (some below) v) ↔ ¬ ReplacesSection below v := by
  constructor
  · rintro covers ⟨names, entries, w, isSection, found, plain⟩
    obtain ⟨given, there⟩ := covers.sections names entries isSection
    have won : setting (onTop (some below) v) names = some w := by
      refine follow_onTop_plain mapping ?_ found plain (some below)
      intro key member _ _
      obtain ⟨name, -, rfl⟩ := List.mem_map.1 member
      exact .inr (Value.isKey_text name)
    exact plain.2 given (Option.some.inj (won.symm.trans there))
  · intro kept
    constructor
    · intro names entries found
      obtain ⟨_, there, isMap⟩ := setting_onTop mapping kept found
      obtain ⟨given, rfl⟩ := isMap entries rfl
      exact ⟨given, there⟩
    · intro names w found
      obtain ⟨given, there, -⟩ := setting_onTop mapping kept found
      exact ⟨given, there⟩

/-! ## Loading -/

theorem load_eq_ok {environment : Environment} {path : String} {content : Option String}
    {settings : List Entry} (loaded : load environment path content = .ok settings) :
    ∃ text, content = some text ∧
      (settings = defaults ∨
        ∃ upper, Yaml.load (expand environment (Text.unifyBreaks text)) = .ok (.map upper) ∧
          settings = merge defaults upper) := by
  unfold load at loaded
  cases content with
  | none => cases loaded
  | some text =>
      dsimp only at loaded
      split at loaded
      · cases loaded
      · cases loaded
      · cases loaded
        exact ⟨text, rfl, .inl rfl⟩
      · rename_i upper read
        cases loaded
        exact ⟨text, rfl, .inr ⟨upper, read, rfl⟩⟩
      · cases loaded

/-- **Loaded settings are complete exactly if no section has a value that is neither null nor a
mapping.** -/
theorem load_covers_iff (environment : Environment) (path : String) (content : Option String) :
    (∀ settings, load environment path content = .ok settings →
        Covers (.map defaults) (.map settings)) ↔
      ∀ text upper, content = some text →
        Yaml.load (expand environment (Text.unifyBreaks text)) = .ok (.map upper) →
          ¬ ReplacesSection (.map defaults) (.map upper) := by
  constructor
  · rintro complete text upper rfl read
    have loaded : load environment path (some text) = .ok (merge defaults upper) := by
      unfold load
      dsimp only
      rw [read]
    exact (onTop_covers_iff (Yaml.load_oneOfEachKey read)).1 (complete _ loaded)
  · intro kept settings loaded
    obtain ⟨text, rfl, rfl | ⟨upper, read, rfl⟩⟩ := load_eq_ok loaded
    · exact covers_refl _
    · exact (onTop_covers_iff (Yaml.load_oneOfEachKey read)).2 (kept text upper rfl read)

/-- A section is given as a number, which then stands in its place. -/
theorem scalar_section_not_covered :
    ∃ settings, load [] "config.yaml" (some "database: 5\n") = .ok settings ∧
      ¬ Covers (.map defaults) (.map settings) := by
  have evaluated : ((load [] "config.yaml" (some "database: 5\n")).toOption.bind fun settings =>
      setting (.map settings) ["database"]).any (·.entries?.isNone) = true := by decide +kernel
  obtain ⟨v, found, noMapping⟩ := (Option.any_eq_true ..).1 evaluated
  obtain ⟨settings, loaded, there⟩ := Option.bind_eq_some_iff.1 found
  refine ⟨settings, toOption_eq_some.1 loaded, fun covers => ?_⟩
  obtain ⟨given, isMapping⟩ := covers.sections ["database"] _ rfl
  cases there.symm.trans isMapping
  cases noMapping

end LogAlert.Settings
