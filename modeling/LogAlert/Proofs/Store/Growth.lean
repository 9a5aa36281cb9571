/-
# LogAlert.Proofs.Store.Growth -- what operations add to a store

Each operation here is described by the rows that it adds when it succeeds (`insertLogs_ok`,
`createProject_ok`, `createAlertRule_ok`, `insertHistory_ok`).  `Grows before after` says that all
rows of the earlier store are still there, at their places; it is what a proof about many operations
needs to know of each of them.
-/
import LogAlert.Store.Alerts
import LogAlert.Store.Logs
import LogAlert.Proofs.Outcome

set_option autoImplicit false

namespace LogAlert

/-- The numbers of an alert rule fit their columns. -/
structure Alert.Rule.FitsColumns (rule : Alert.Rule) : Prop where
  threshold : Time.fitsBits 64 rule.threshold = true
  window : Time.fitsBits 64 rule.window = true

namespace Store

/-- Rows are only added, each behind the rows of its kind. -/
structure Grows (before after : Store) : Prop where
  projects : before.projects <+: after.projects
  logs : before.logs <+: after.logs
  alertRules : before.alertRules <+: after.alertRules
  history : before.history <+: after.history
  detectionRules : before.detectionRules <+: after.detectionRules

namespace Grows

theorem refl (store : Store) : Grows store store :=
  ⟨List.prefix_refl _, List.prefix_refl _, List.prefix_refl _, List.prefix_refl _,
    List.prefix_refl _⟩

theorem trans {first second third : Store} (one : Grows first second) (two : Grows second third) :
    Grows first third :=
  ⟨one.projects.trans two.projects, one.logs.trans two.logs,
    one.alertRules.trans two.alertRules, one.history.trans two.history,
    one.detectionRules.trans two.detectionRules⟩

end Grows

theorem required_eq_ok {α : Type} {x : Option α} {a : α} : required x = .ok a ↔ x = some a := by
  cases x <;> simp [required]

theorem number_eq_ok {n m : Int} : number n = .ok m ↔ n = m ∧ Time.fitsBits 64 n = true := by
  unfold number
  split
  · rename_i fits
    simp [fits]
  · rename_i beyond
    simp [beyond]

variable {store after : Store} {ids ids' : Ids}

theorem createProject_ok {organization name : Option String} {id : String}
    (created : store.createProject ids organization name = .ok (id, after, ids')) :
    ∃ row, after = { store with projects := store.projects ++ [row] } := by
  obtain ⟨owner, -, created⟩ := bind_eq_ok.1 created
  obtain ⟨title, -, created⟩ := bind_eq_ok.1 created
  cases created
  exact ⟨_, rfl⟩

theorem insertLogs_ok {entries : List LogEntry} {project : Option String} {count : Nat}
    (inserted : store.insertLogs ids entries project = .ok (count, after, ids')) :
    ∃ rows, after = { store with logs := store.logs ++ rows } := by
  obtain ⟨times, -, inserted⟩ := bind_eq_ok.1 inserted
  obtain ⟨⟨rows, later⟩, -, inserted⟩ := bind_eq_ok.1 inserted
  dsimp only at inserted
  split at inserted
  · cases inserted
    exact ⟨rows, rfl⟩
  · cases inserted

theorem createAlertRule_ok {new : NewAlertRule} {rule : Alert.Rule}
    (created : store.createAlertRule ids new = .ok (rule, after, ids')) :
    after = { store with alertRules := store.alertRules ++ [rule] } ∧ ids' = ids.fresh.2 ∧
      rule.id = ids.fresh.1 ∧ rule.FitsColumns := by
  obtain ⟨organization, -, created⟩ := bind_eq_ok.1 created
  obtain ⟨name, -, created⟩ := bind_eq_ok.1 created
  obtain ⟨threshold, -, created⟩ := bind_eq_ok.1 created
  obtain ⟨_, number, created⟩ := bind_eq_ok.1 created
  obtain ⟨rfl, fits⟩ := number_eq_ok.1 number
  obtain ⟨window, -, created⟩ := bind_eq_ok.1 created
  obtain ⟨_, number, created⟩ := bind_eq_ok.1 created
  obtain ⟨rfl, fitsWindow⟩ := number_eq_ok.1 number
  cases created
  exact ⟨rfl, rfl, rfl, fits, fitsWindow⟩

/-- An alert rule of a draft is created if its owner is given and its numbers fit their columns. -/
theorem createAlertRule_draft (store : Store) (ids : Ids) (draft : Alert.Draft)
    {organization : Option String} (owned : organization.isSome = true) (project : Option String)
    (fits : Time.fitsBits 64 draft.threshold = true)
    (fitsWindow : Time.fitsBits 64 draft.window = true) :
    ∃ created, store.createAlertRule ids { NewAlertRule.ofDraft draft "" project with organization } =
      .ok created := by
  obtain ⟨name, rfl⟩ := Option.isSome_iff_exists.1 owned
  have threshold : number draft.threshold = .ok draft.threshold := number_eq_ok.2 ⟨rfl, fits⟩
  have window : number draft.window = .ok draft.window := number_eq_ok.2 ⟨rfl, fitsWindow⟩
  simp only [createAlertRule, NewAlertRule.ofDraft, required, ok_bind, threshold, window]
  exact ⟨_, rfl⟩

/-- What an alert rule has from what it was created from. -/
theorem createAlertRule_copies {new : NewAlertRule} {rule : Alert.Rule}
    (created : store.createAlertRule ids new = .ok (rule, after, ids')) :
    new.organization = some rule.organization ∧ rule.project = new.project ∧
      rule.enabled = new.enabled := by
  obtain ⟨organization, owned, created⟩ := bind_eq_ok.1 created
  obtain ⟨name, -, created⟩ := bind_eq_ok.1 created
  obtain ⟨threshold, -, created⟩ := bind_eq_ok.1 created
  obtain ⟨_, -, created⟩ := bind_eq_ok.1 created
  obtain ⟨window, -, created⟩ := bind_eq_ok.1 created
  obtain ⟨_, -, created⟩ := bind_eq_ok.1 created
  cases created
  exact ⟨required_eq_ok.1 owned, rfl, rfl⟩

theorem insertHistory_ok {rule : Option String} {count : Int} {time : Time.Instant} {id : String}
    (inserted : store.insertHistory ids rule count time = .ok (id, after, ids')) :
    ∃ name, rule = some name ∧ id = ids.fresh.1 ∧ ids' = ids.fresh.2 ∧
      after = { store with
        history := store.history ++ [⟨ids.fresh.1, name, time, count, false, none⟩] } := by
  obtain ⟨name, given, inserted⟩ := bind_eq_ok.1 inserted
  obtain ⟨fitting, fits, inserted⟩ := bind_eq_ok.1 inserted
  obtain ⟨rfl, -⟩ := number_eq_ok.1 fits
  cases inserted
  exact ⟨name, required_eq_ok.1 given, rfl, rfl, rfl⟩

theorem createProject_grows {organization name : Option String} {id : String}
    (created : store.createProject ids organization name = .ok (id, after, ids')) :
    Grows store after := by
  obtain ⟨row, rfl⟩ := createProject_ok created
  exact { Grows.refl store with projects := List.prefix_append _ _ }

theorem insertLogs_grows {entries : List LogEntry} {project : Option String} {count : Nat}
    (inserted : store.insertLogs ids entries project = .ok (count, after, ids')) :
    Grows store after := by
  obtain ⟨rows, rfl⟩ := insertLogs_ok inserted
  exact { Grows.refl store with logs := List.prefix_append _ _ }

theorem createAlertRule_grows {new : NewAlertRule} {rule : Alert.Rule}
    (created : store.createAlertRule ids new = .ok (rule, after, ids')) : Grows store after := by
  obtain ⟨rfl, -⟩ := createAlertRule_ok created
  exact { Grows.refl store with alertRules := List.prefix_append _ _ }

theorem insertHistory_grows {rule : Option String} {count : Int} {time : Time.Instant}
    {id : String} (inserted : store.insertHistory ids rule count time = .ok (id, after, ids')) :
    Grows store after := by
  obtain ⟨name, -, -, -, rfl⟩ := insertHistory_ok inserted
  exact { Grows.refl store with history := List.prefix_append _ _ }

end Store

end LogAlert
