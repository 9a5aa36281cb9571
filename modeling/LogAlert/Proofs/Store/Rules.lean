/-
# LogAlert.Proofs.Store.Rules -- how detection rules come into the store

A detection rule enters the store by being saved or imported.  Either way at most one row is added,
behind the others and under a name that was not handed out before (`Gains`); rows are neither
changed nor taken away.  So rows can be told apart by their names at any time (`Keyed`), and a row
that is active for a scope stays active for it (`Gains.activeRows`).

Alert rules, which are created on their own or with an import (`GainsAlert`), can be told apart by
their names as well (`AlertsKeyed`), and their numbers fit their columns (`AlertsFit`).
-/
import LogAlert.Store.Import
import LogAlert.Proofs.Ids
import LogAlert.Proofs.Store.Growth
import Mathlib.Data.List.Nodup

set_option autoImplicit false

namespace LogAlert

/-! ## Reading a rule uses up names -/

namespace Sigma

theorem Rule.ofValue_advances (ids : Ids) (raw : Value) :
    ids.Advances (Rule.ofValue ids raw).2 := by
  unfold Rule.ofValue
  split
  · exact .refl ids
  · exact .orFresh ids _

theorem ofDocument_advances (ids : Ids) (raw : Value) : ids.Advances (ofDocument ids raw).2 := by
  have read := Rule.ofValue_advances ids raw
  unfold ofDocument
  split
  · exact .refl ids
  · exact .refl ids
  · split
    · rename_i result
      rw [result] at read
      exact read
    · rename_i result
      rw [result] at read
      split <;> exact read

theorem parse_advances (ids : Ids) (text : String) : ids.Advances (parse ids text).2 := by
  unfold parse
  split
  · exact .refl ids
  · exact .refl ids
  · exact ofDocument_advances ids _

end Sigma

namespace Store

/-! ## Rows under new names -/

/-- At most one detection rule is added, under a name handed out meanwhile. -/
inductive Gains (before : Store) (ids : Ids) (after : Store) (ids' : Ids) : Prop where
  | nothing (advances : ids.Advances ids')
      (rows : after.detectionRules = before.detectionRules)
  | rule (row : DetectionRow) (names : Ids) (earlier : ids.Advances names)
      (named : row.id = names.fresh.1) (later : names.fresh.2.Advances ids')
      (rows : after.detectionRules = before.detectionRules ++ [row])

/-- Detection rules have names that were handed out, each its own. -/
structure Keyed (store : Store) (ids : Ids) : Prop where
  issued : ∀ row ∈ store.detectionRules, ids.Issued row.id
  distinct : (store.detectionRules.map (·.id)).Nodup

variable {before after store : Store} {ids ids' : Ids}

theorem Gains.advances (gains : Gains before ids after ids') : ids.Advances ids' := by
  cases gains with
  | nothing advances rows => exact advances
  | rule row names earlier named later rows => exact (earlier.trans (.fresh names)).trans later

/-- Names may be used up before. -/
theorem Gains.after_advances {names : Ids} (advances : ids.Advances names)
    (gains : Gains before names after ids') : Gains before ids after ids' := by
  cases gains with
  | nothing later rows => exact .nothing (advances.trans later) rows
  | rule row middle earlier named later rows =>
      exact .rule row middle (advances.trans earlier) named later rows

theorem Gains.detectionRules (gains : Gains before ids after ids') :
    before.detectionRules <+: after.detectionRules := by
  cases gains with
  | nothing advances rows => exact rows ▸ List.prefix_refl _
  | rule row names earlier named later rows => exact rows ▸ List.prefix_append _ _

/-- Active rules stay active. -/
theorem Gains.activeRows (gains : Gains before ids after ids') {scope : Scope}
    {row : DetectionRow} (active : row ∈ before.activeRows scope) :
    row ∈ after.activeRows scope := by
  obtain ⟨stored, applies⟩ := List.mem_filter.1 active
  exact List.mem_filter.2 ⟨gains.detectionRules.subset stored, applies⟩

theorem keyed_of_noRules (none : store.detectionRules = []) (ids : Ids) : store.Keyed ids := by
  constructor
  · intro row stored
    rw [none] at stored
    cases stored
  · rw [none]
    exact List.nodup_nil

theorem Keyed.gains (keyed : before.Keyed ids) (gains : Gains before ids after ids') :
    after.Keyed ids' := by
  have kept : ∀ row ∈ before.detectionRules, ids'.Issued row.id :=
    fun row stored => (keyed.issued row stored).mono gains.advances
  cases gains with
  | nothing advances rows => exact ⟨rows ▸ kept, rows ▸ keyed.distinct⟩
  | rule row names earlier named later rows =>
      constructor
      · intro other stored
        rw [rows] at stored
        rcases List.mem_append.1 stored with old | new
        · exact kept other old
        · rw [List.mem_singleton.1 new, named]
          exact (Ids.issued_fresh names).mono later
      · rw [rows, List.map_append, List.map_cons, List.map_nil, named]
        exact Ids.nodup_concat_fresh (List.forall_mem_map.2 keyed.issued) keyed.distinct earlier

/-- Alert rules have names that were handed out, each its own. -/
structure AlertsKeyed (store : Store) (ids : Ids) : Prop where
  issued : ∀ rule ∈ store.alertRules, ids.Issued rule.id
  distinct : (store.alertRules.map (·.id)).Nodup

/-- The numbers of all alert rules fit their columns. -/
def AlertsFit (store : Store) : Prop := ∀ rule ∈ store.alertRules, rule.FitsColumns

/-- At most one alert rule is added, as alert rules are created. -/
inductive GainsAlert (before : Store) (ids : Ids) (after : Store) (ids' : Ids) : Prop where
  | nothing (advances : ids.Advances ids') (same : after.alertRules = before.alertRules)
  | rule (rule : Alert.Rule) (names : Ids) (earlier : ids.Advances names)
      (named : rule.id = names.fresh.1) (later : names.fresh.2.Advances ids')
      (fits : rule.FitsColumns) (rules : after.alertRules = before.alertRules ++ [rule])

theorem GainsAlert.advances (gains : GainsAlert before ids after ids') : ids.Advances ids' := by
  cases gains with
  | nothing advances same => exact advances
  | rule rule names earlier named later fits rules => exact (earlier.trans (.fresh names)).trans later

/-- Names may be used up before. -/
theorem GainsAlert.after_advances {names : Ids} (advances : ids.Advances names)
    (gains : GainsAlert before names after ids') : GainsAlert before ids after ids' := by
  cases gains with
  | nothing later same => exact .nothing (advances.trans later) same
  | rule rule middle earlier named later fits rules =>
      exact .rule rule middle (advances.trans earlier) named later fits rules

/-- More names may be used up behind, and other tables change. -/
theorem GainsAlert.advances_after {names : Ids} {last : Store}
    (gains : GainsAlert before ids after ids') (advances : ids'.Advances names)
    (same : last.alertRules = after.alertRules) : GainsAlert before ids last names := by
  cases gains with
  | nothing earlier kept => exact .nothing (earlier.trans advances) (same.trans kept)
  | rule rule middle earlier named later fits rules =>
      exact .rule rule middle earlier named (later.trans advances) fits (same.trans rules)

theorem GainsAlert.create {new : NewAlertRule} {rule : Alert.Rule}
    (created : store.createAlertRule ids new = .ok (rule, after, ids')) :
    GainsAlert store ids after ids' := by
  obtain ⟨rfl, rfl, named, fits⟩ := createAlertRule_ok created
  exact .rule rule ids (.refl ids) named (.refl _) fits rfl

/-- A new alert rule has a name of its own. -/
theorem AlertsKeyed.gains (keyed : before.AlertsKeyed ids)
    (gains : GainsAlert before ids after ids') : after.AlertsKeyed ids' := by
  have kept : ∀ rule ∈ before.alertRules, ids'.Issued rule.id :=
    fun rule stored => (keyed.issued rule stored).mono gains.advances
  cases gains with
  | nothing advances same => exact ⟨same ▸ kept, same ▸ keyed.distinct⟩
  | rule rule names earlier named later fits rules =>
      constructor
      · intro other stored
        rw [rules] at stored
        rcases List.mem_append.1 stored with old | new
        · exact kept other old
        · rw [List.mem_singleton.1 new, named]
          exact (Ids.issued_fresh names).mono later
      · rw [rules, List.map_append, List.map_cons, List.map_nil, named]
        exact Ids.nodup_concat_fresh (List.forall_mem_map.2 keyed.issued) keyed.distinct earlier

/-- The numbers of a new alert rule fit their columns. -/
theorem AlertsFit.gains (fit : before.AlertsFit) (gains : GainsAlert before ids after ids') :
    after.AlertsFit := by
  cases gains with
  | nothing advances same =>
      rw [AlertsFit, same]
      exact fit
  | rule rule names earlier named later fits rules =>
      intro other stored
      rw [rules] at stored
      rcases List.mem_append.1 stored with old | new
      · exact fit other old
      · exact List.mem_singleton.1 new ▸ fits

/-- Rows with the same name are the same. -/
theorem Keyed.eq_of_id (keyed : store.Keyed ids) {row other : DetectionRow}
    (stored : row ∈ store.detectionRules) (stored' : other ∈ store.detectionRules)
    (same : row.id = other.id) : row = other :=
  List.inj_on_of_nodup_map keyed.distinct stored stored' same

/-! ## Saving and importing -/

theorem saveRule_ok {rule : Sigma.Rule} {options : RuleOptions} {id : String}
    (saved : store.saveRule ids rule options = .ok (id, after, ids')) :
    ∃ row : DetectionRow, row.id = ids.fresh.1 ∧ ids' = ids.fresh.2 ∧
      after = { store with detectionRules := store.detectionRules ++ [row] } := by
  obtain ⟨logsource, -, saved⟩ := bind_eq_ok.1 saved
  obtain ⟨detection, -, saved⟩ := bind_eq_ok.1 saved
  obtain ⟨level, -, saved⟩ := bind_eq_ok.1 saved
  obtain ⟨status, -, saved⟩ := bind_eq_ok.1 saved
  obtain ⟨organization, -, saved⟩ := bind_eq_ok.1 saved
  cases saved
  exact ⟨_, rfl, rfl, rfl⟩

theorem saveRule_gains {rule : Sigma.Rule} {options : RuleOptions} {id : String}
    (saved : store.saveRule ids rule options = .ok (id, after, ids')) :
    Gains store ids after ids' := by
  obtain ⟨row, named, rfl, rfl⟩ := saveRule_ok saved
  exact .rule row ids (.refl ids) named (.refl _) rfl

/-- A change that took place could be encoded. -/
theorem encoding_eq_ok {α : Type} {unencodable : Option Fault} {change : Except StoreError α} {x : α} :
    encoding unencodable change = .ok x ↔ unencodable = none ∧ change = .ok x := by
  cases unencodable with
  | none => simp [encoding]
  | some fault => rcases change with (_ | _ | _ | _) | x <;> simp [encoding]

/-- The alert rule that stands before the rule itself: none, if none is wanted, or one of the draft,
whose texts could be encoded. -/
inductive StoresFirst (store : Store) (ids : Ids) (request : ImportRequest) (rule shown : Sigma.Rule)
    (draft? : Option Alert.Draft) : Option Alert.Rule → Store → Ids → Prop where
  | nothing (unwanted : request.wantsAlertRule = false) :
      StoresFirst store ids request rule shown draft? none store ids
  | alertRule {draft : Alert.Draft} {created : Alert.Rule} {after : Store} {ids' : Ids}
      (wanted : request.wantsAlertRule = true) (drafted : draft? = some draft)
      (encoded : unencodable? (alertTexts rule) (alertTexts shown) = none)
      (creates : store.createAlertRule ids { NewAlertRule.ofDraft draft "" request.project with
        organization := request.organization } = .ok (created, after, ids')) :
      StoresFirst store ids request rule shown draft? (some created) after ids'

/-- How it can end to store a rule of which the conversion is known. -/
inductive ConvertedEnds (store : Store) (ids : Ids) (request : ImportRequest)
    (rule shown : Sigma.Rule) (lint : List String) (conversion : Alert.Conversion) :
    Except StoreError ImportResult → Store → Ids → Prop where
  /-- The alert rule cannot be stored. -/
  | withoutAlertRule {draft : Alert.Draft} {e : StoreError} (drafted : conversion.draft? = some draft)
      (failed : store.storeAlertRule ids request rule shown draft = .error e) :
      ConvertedEnds store ids request rule shown lint conversion (.error e) store ids
  /-- An alert rule is wanted of a rule that has none. -/
  | unconverted (none : conversion.draft? = none) :
      ConvertedEnds store ids request rule shown lint conversion
        (.ok (.rejected (some rule) (lint ++ conversion.warnings) conversion.errors)) store ids
  /-- The rule itself cannot be stored. -/
  | unsaved {alertRule : Option Alert.Rule} {middle : Store} {names : Ids} {e : StoreError}
      (first : StoresFirst store ids request rule shown conversion.draft? alertRule middle names)
      (failed : middle.storeRule names request rule shown (importStatus lint) conversion.notes
        (alertRule.map (·.id)) = .error e) :
      ConvertedEnds store ids request rule shown lint conversion (.error e) middle names
  | saved {alertRule : Option Alert.Rule} {middle after : Store} {names ids' : Ids}
      {record : String}
      (first : StoresFirst store ids request rule shown conversion.draft? alertRule middle names)
      (saved : middle.storeRule names request rule shown (importStatus lint) conversion.notes
        (alertRule.map (·.id)) = .ok (record, after, ids')) :
      ConvertedEnds store ids request rule shown lint conversion
        (.ok ⟨some rule, some record, alertRule.map (·.id), some (importStatus lint),
          lint ++ conversion.warnings, []⟩) after ids'

section Imports

variable {request : ImportRequest} {rule shown : Sigma.Rule} {draft? : Option Alert.Draft}
  {alertRule : Option Alert.Rule}

theorem storeAlertRule_first {draft : Alert.Draft} {named : Option String}
    (stored : store.storeAlertRule ids request rule shown draft = .ok (named, after, ids')) :
    ∃ alertRule, named = alertRule.map (·.id) ∧
      StoresFirst store ids request rule shown (some draft) alertRule after ids' := by
  unfold storeAlertRule at stored
  split at stored
  · rename_i wanted
    obtain ⟨⟨created, middle, names⟩, bound, stored⟩ := bind_eq_ok.1 stored
    obtain ⟨encoded, creates⟩ := encoding_eq_ok.1 bound
    cases stored
    exact ⟨some created, rfl, .alertRule wanted rfl encoded creates⟩
  · rename_i unwanted
    cases stored
    exact ⟨none, rfl, .nothing (eq_false_of_ne_true unwanted)⟩

theorem storeConverted_ends (store : Store) (ids : Ids) (request : ImportRequest)
    (rule shown : Sigma.Rule) (lint : List String) (conversion : Alert.Conversion) :
    ConvertedEnds store ids request rule shown lint conversion
      (store.storeConverted ids request rule shown lint conversion).1
      (store.storeConverted ids request rule shown lint conversion).2.1
      (store.storeConverted ids request rule shown lint conversion).2.2 := by
  unfold storeConverted
  dsimp only
  cases drafted : conversion.draft? with
  | none =>
      cases wanted : request.wantsAlertRule with
      | true => exact .unconverted drafted
      | false =>
          have first : StoresFirst store ids request rule shown conversion.draft? none store ids :=
            .nothing wanted
          simp only [Bool.false_eq_true, reduceIte]
          split
          · rename_i failed
            exact .unsaved first failed
          · rename_i saved
            exact .saved first saved
  | some draft =>
      cases stored : store.storeAlertRule ids request rule shown draft with
      | error e =>
          simp only [stored, Except.map]
          exact .withoutAlertRule drafted stored
      | ok result =>
          obtain ⟨named, middle, names⟩ := result
          obtain ⟨alertRule, rfl, first⟩ := storeAlertRule_first stored
          rw [← drafted] at first
          simp only [stored, Except.map]
          split
          · rename_i failed
            exact .unsaved first failed
          · rename_i saved
            exact .saved first saved

/-- An alert rule is no detection rule. -/
theorem StoresFirst.detectionRules
    (first : StoresFirst store ids request rule shown draft? alertRule after ids') :
    after.detectionRules = store.detectionRules := by
  cases first with
  | nothing unwanted => rfl
  | alertRule wanted drafted encoded creates =>
      obtain ⟨rfl, -⟩ := createAlertRule_ok creates
      rfl

theorem StoresFirst.gainsAlert
    (first : StoresFirst store ids request rule shown draft? alertRule after ids') :
    GainsAlert store ids after ids' := by
  cases first with
  | nothing unwanted => exact .nothing (.refl ids) rfl
  | alertRule wanted drafted encoded creates => exact .create creates

end Imports

section Converted

variable {request : ImportRequest} {rule shown : Sigma.Rule} {lint : List String}
  {conversion : Alert.Conversion} {outcome : Except StoreError ImportResult}

theorem ConvertedEnds.gains
    (ends : ConvertedEnds store ids request rule shown lint conversion outcome after ids') :
    Gains store ids after ids' := by
  cases ends with
  | withoutAlertRule drafted failed => exact .nothing (.refl ids) rfl
  | unconverted none => exact .nothing (.refl ids) rfl
  | unsaved first failed => exact .nothing first.gainsAlert.advances first.detectionRules
  | saved first saved =>
      have gains := (saveRule_gains (encoding_eq_ok.1 saved).2).after_advances
        first.gainsAlert.advances
      cases gains with
      | nothing advances rows => exact .nothing advances (rows.trans first.detectionRules)
      | rule row middle earlier named later rows =>
          exact .rule row middle earlier named later (first.detectionRules ▸ rows)

theorem ConvertedEnds.gainsAlert
    (ends : ConvertedEnds store ids request rule shown lint conversion outcome after ids') :
    GainsAlert store ids after ids' := by
  cases ends with
  | withoutAlertRule drafted failed => exact .nothing (.refl ids) rfl
  | unconverted none => exact .nothing (.refl ids) rfl
  | unsaved first failed => exact first.gainsAlert
  | saved first saved =>
      obtain ⟨row, -, rfl, rfl⟩ := saveRule_ok (encoding_eq_ok.1 saved).2
      exact first.gainsAlert.advances_after (.fresh _) rfl

end Converted

theorem importRule_gains (store : Store) (ids : Ids) (noService : Option String)
    (request : ImportRequest) :
    Gains store ids (store.importRule ids noService request).2.1
      (store.importRule ids noService request).2.2 := by
  have read := Sigma.parse_advances ids request.text
  unfold importRule
  split
  · rename_i result
    rw [result] at read
    exact .nothing read rfl
  · rename_i result
    rw [result] at read
    exact .nothing read rfl
  · rename_i rule lint names result
    rw [result] at read
    exact (storeConverted_ends store names request rule _ lint _).gains.after_advances read

theorem importRule_gainsAlert (store : Store) (ids : Ids) (noService : Option String)
    (request : ImportRequest) :
    GainsAlert store ids (store.importRule ids noService request).2.1
      (store.importRule ids noService request).2.2 := by
  have read := Sigma.parse_advances ids request.text
  unfold importRule
  split
  · rename_i result
    rw [result] at read
    exact .nothing read rfl
  · rename_i result
    rw [result] at read
    exact .nothing read rfl
  · rename_i rule lint names result
    rw [result] at read
    exact (storeConverted_ends store names request rule _ lint _).gainsAlert.after_advances read

/-- Importing a rule keeps the names of alert rules apart. -/
theorem AlertsKeyed.importRule (keyed : store.AlertsKeyed ids) (noService : Option String)
    (request : ImportRequest) :
    (store.importRule ids noService request).2.1.AlertsKeyed
      (store.importRule ids noService request).2.2 :=
  keyed.gains (importRule_gainsAlert store ids noService request)

/-- Alert rules that are imported fit their columns, too. -/
theorem AlertsFit.importRule (fit : store.AlertsFit) (ids : Ids) (noService : Option String)
    (request : ImportRequest) : (store.importRule ids noService request).2.1.AlertsFit :=
  fit.gains (importRule_gainsAlert store ids noService request)

end Store

end LogAlert
