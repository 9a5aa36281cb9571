/-
# LogAlert.Proofs.Alert.Conversion -- what an alert rule takes from its detection rule

A conversion that succeeds has found threshold and window for the level of the rule, and has printed
its detection; everything else in the alert rule is taken from the rule and the request as it stands
(`convert_draft`).
-/
import LogAlert.Alert.Conversion
import LogAlert.Proofs.Outcome
import LogAlert.Proofs.Value.Entries
import LogAlert.Time.Stamp

set_option autoImplicit false

namespace LogAlert.Alert

theorem Conversion.errors_ne_nil {conversion : Conversion} (none : conversion.draft? = none) :
    conversion.errors ≠ [] := by
  cases conversion with
  | converted => cases none
  | failed => exact List.cons_ne_nil _ _

/-- Threshold and window of every level fit their columns. -/
theorem severityOf_fits {level : Value} {threshold window : Int}
    (ofLevel : severityOf level = .ok (threshold, window)) :
    Time.fitsBits 64 threshold = true ∧ Time.fitsBits 64 window = true := by
  have each : ∀ entry ∈ severities,
      Time.fitsBits 64 entry.2.1 = true ∧ Time.fitsBits 64 entry.2.2 = true := by decide
  unfold severityOf at ofLevel
  split at ofLevel
  · cases ofLevel
  · cases found : level.text?.bind fun name => severities.lookup name with
    | none =>
        rw [found] at ofLevel
        cases ofLevel
        decide
    | some severity =>
        rw [found] at ofLevel
        cases ofLevel
        obtain ⟨name, -, listed⟩ := Option.bind_eq_some_iff.1 found
        exact each (name, threshold, window) (mem_of_lookup listed)

/-- The alert rule of a conversion, field by field, and what could be printed for it. -/
theorem convert_draft {noService : Option String} {rule : Sigma.Rule} {recipients : List String}
    {webhook : Option String} {draft : Draft}
    (drafted : (convert noService rule recipients webhook).draft? = some draft) :
    (∃ threshold window, severityOf rule.level = .ok (threshold, window) ∧
      draft = {
        name := rule.title, levels := allLevels, threshold, window
        service := serviceOf rule.logsource, enabled := true, recipients, webhook
        metadata := originOf rule }) ∧
      ∃ cs, Json.chars .asText rule.detection.toValue = .ok cs := by
  unfold convert convertFor at drafted
  split at drafted
  · cases drafted
  · dsimp only at drafted
    split at drafted
    · cases drafted
    · rename_i parts
      cases drafted
      obtain ⟨severity, ofLevel, parts⟩ := bind_eq_ok.1 parts
      obtain ⟨features, found, parts⟩ := bind_eq_ok.1 parts
      cases parts
      obtain ⟨text, printed, -⟩ := bind_eq_ok.1 found
      refine ⟨⟨_, _, ofLevel, rfl⟩, ?_⟩
      cases written : Json.chars .asText rule.detection.toValue with
      | error e => rw [Json.print, written] at printed; cases printed
      | ok cs => exact ⟨cs, rfl⟩

end LogAlert.Alert
