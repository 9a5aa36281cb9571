/-
# LogAlert.Proofs.Store.Listing -- which rules are listed

Rules are listed by building them from their rows again.  An import that ends well adds one row,
which stores the rule of the text (`Store.Imports`, `Store.importRule_cases`), and nothing that
happens to a service takes rows away or adds rows that are not sound (`Service.perform_adds`).

Main statement: an imported rule is listed from then on, with one constraint for each key; so it is
listed as it was imported exactly if the keys of each of its selections are distinct
(`imported_listed_iff`).  `equal_keys_not_listed` shows an import for which they are not.
-/
import LogAlert.Proofs.Delivery.Addressing
import LogAlert.Proofs.Store.Rows

set_option autoImplicit false

namespace LogAlert

/-! ## What an import stores -/

/-- Where the rule of a text comes from. -/
theorem Sigma.parse_rule {ids ids' : Ids} {text : String} {rule : Rule} {lint : List String}
    (read : parse ids text = (.ok (.rule rule lint), ids')) :
    ∃ raw names, Yaml.load text = .ok raw ∧ Valid raw ∧
      Rule.ofValue ids raw = (.ok rule, names) := by
  unfold parse at read
  split at read
  · cases read
  · cases read
  · rename_i raw loaded
    have text_holds : Yaml.load text = .ok raw := by
      unfold document at loaded
      split at loaded
      · rename_i entries same
        cases loaded
        exact same
      all_goals cases loaded
    unfold ofDocument at read
    split at read
    · cases read
    · cases read
    · rename_i none
      refine ⟨raw, ?_⟩
      split at read
      · cases read
      · rename_i rule' names ofRaw
        split at read
        · cases read
        · cases read
          exact ⟨_, text_holds, problems_eq_nil.1 none, ofRaw⟩

namespace Store

/-- The rule of the text was stored in the row, which is active for the organization and the project
of the request and stands behind the others. -/
structure Imports (before : Store) (ids : Ids) (request : ImportRequest) (after : Store)
    (rule : Sigma.Rule) (row : DetectionRow) : Prop where
  read : ∃ raw names, Yaml.load request.text = .ok raw ∧ Sigma.Valid raw ∧
    Sigma.Rule.ofValue ids raw = (.ok rule, names)
  stores : row.Stores rule
  organization : request.organization = some row.organization
  project : row.project = request.project
  active : row.conversionStatus.any (activeStatuses.contains ·) = true
  rows : after.detectionRules = before.detectionRules ++ [row]

theorem importStatus_active (lint : List String) :
    (some (importStatus lint)).any (activeStatuses.contains ·) = true := by
  unfold importStatus
  split <;> rfl

variable {store : Store} {ids : Ids} {request : ImportRequest}

/-- The rule is stored in a row behind the others, or the import does not end well and rows stay as
they are. -/
theorem storeConverted_cases {rule shown : Sigma.Rule} {lint : List String}
    {conversion : Alert.Conversion} {outcome : Except StoreError ImportResult} {after : Store}
    {ids' : Ids}
    (ended : store.storeConverted ids request rule shown lint conversion = (outcome, after, ids')) :
    (after.detectionRules = store.detectionRules ∧ ∀ result, outcome = .ok result →
        result.isOk = false) ∨
      ∃ result row, outcome = .ok result ∧ result.rule = some rule ∧ row.Stores rule ∧
        request.organization = some row.organization ∧ row.project = request.project ∧
        row.conversionStatus = some (importStatus lint) ∧
        after.detectionRules = store.detectionRules ++ [row] := by
  have ends := storeConverted_ends store ids request rule shown lint conversion
  rw [ended] at ends
  cases ends with
  | withoutAlertRule drafted failed => exact .inl ⟨rfl, fun _ same => nomatch same⟩
  | unconverted none =>
      refine .inl ⟨rfl, fun result same => ?_⟩
      cases same
      rfl
  | unsaved first failed => exact .inl ⟨first.detectionRules, fun _ none => nomatch none⟩
  | saved first saved =>
      obtain ⟨row, -, stores, organization, project, status, rfl⟩ :=
        saveRule_stores (encoding_eq_ok.1 saved).2
      exact .inr ⟨_, row, rfl, rfl, stores, organization, project, status,
        congrArg (· ++ [row]) first.detectionRules⟩

@[inherit_doc storeConverted_cases]
theorem importRule_cases {noService : Option String} {outcome : Except StoreError ImportResult}
    {after : Store} {ids' : Ids}
    (ended : store.importRule ids noService request = (outcome, after, ids')) :
    (after.detectionRules = store.detectionRules ∧ ∀ result, outcome = .ok result →
        result.isOk = false) ∨
      ∃ result rule row, outcome = .ok result ∧ result.rule = some rule ∧
        store.Imports ids request after rule row := by
  unfold importRule at ended
  split at ended
  · cases ended
    exact .inl ⟨rfl, fun _ same => nomatch same⟩
  · cases ended
    refine .inl ⟨rfl, fun result same => ?_⟩
    cases same
    rfl
  · rename_i rule lint names read
    rcases storeConverted_cases ended with unchanged |
      ⟨result, row, same, ofRule, stores, organization, project, status, rows⟩
    · exact .inl unchanged
    · refine .inr ⟨result, rule, row, same, ofRule, Sigma.parse_rule read, stores, organization,
        project, ?_, rows⟩
      rw [status]
      exact importStatus_active lint

/-- Sound rows are added behind the others. -/
def Adds (before after : Store) : Prop :=
  ∃ rows, after.detectionRules = before.detectionRules ++ rows ∧ ∀ row ∈ rows, row.Sound

variable {before middle after : Store}

theorem Adds.of_eq (same : after.detectionRules = before.detectionRules) : Adds before after :=
  ⟨[], same.trans (List.append_nil _).symm, List.forall_mem_nil _⟩

theorem Adds.one {row : DetectionRow} (sound : row.Sound)
    (rows : after.detectionRules = before.detectionRules ++ [row]) : Adds before after :=
  ⟨[row], rows, fun _ member => List.mem_singleton.1 member ▸ sound⟩

theorem Adds.trans (first : Adds before middle) (second : Adds middle after) :
    Adds before after := by
  obtain ⟨rows, same, sound⟩ := first
  obtain ⟨more, same', sound'⟩ := second
  refine ⟨rows ++ more, ?_, fun row member => ?_⟩
  · rw [same', same, List.append_assoc]
  · exact (List.mem_append.1 member).elim (sound row) (sound' row)

theorem Imports.sound {ids : Ids} {request : ImportRequest} {rule : Sigma.Rule} {row : DetectionRow}
    (imports : before.Imports ids request after rule row) : row.Sound := by
  obtain ⟨raw, names, -, -, read⟩ := imports.read
  exact imports.stores.sound (Sigma.keyed_of_ofValue read)

theorem importRule_adds (store : Store) (ids : Ids) (noService : Option String)
    (request : ImportRequest) : Adds store (store.importRule ids noService request).2.1 := by
  rcases importRule_cases (Prod.eta _).symm with ⟨same, -⟩ | ⟨_, _, row, -, -, imports⟩
  · exact .of_eq same
  · exact .one imports.sound imports.rows

/-! ## Listing -/

theorem inScope_self (project : Option String) : inScope project project = true := by
  unfold inScope
  split
  · rfl
  · rename_i name some
    have same : project = .some name := by
      cases project with
      | none => cases some
      | some s => exact (Option.filter_eq_some_iff.1 some).1
    simp [same]

/-- The row of an imported rule is active. -/
theorem Imports.activeRow {ids : Ids} {request : ImportRequest} {rule : Sigma.Rule}
    {row : DetectionRow} (imports : before.Imports ids request middle rule row)
    (adds : Adds middle after) :
    row ∈ after.activeRows ⟨row.organization, request.project⟩ := by
  obtain ⟨rows, same, -⟩ := adds
  have stored : row ∈ after.detectionRules := by
    rw [same, imports.rows]
    exact List.mem_append_left _ (List.mem_append_right _ (List.mem_singleton_self row))
  have scope := inScope_self request.project
  refine List.mem_filter.2 ⟨stored, ?_⟩
  simp only [imports.active, imports.project, scope, decide_true, Bool.and_self]

section Sound

variable {store : Store} {scope : Scope} {rules : List Sigma.Rule}

/-- If all rows are sound, then those that are active are listed. -/
theorem activeRules_total (sound : ∀ row ∈ store.detectionRules, row.Sound) (scope : Scope) :
    ∃ rules, store.activeRules scope = .ok rules := by
  obtain ⟨found, mapped⟩ := mapM_total fun row (member : row ∈ store.activeRows scope) =>
    (sound row (List.mem_filter.1 member).1).rule?_total
  exact ⟨found.reduceOption, bind_eq_ok.2 ⟨found, mapped, rfl⟩⟩

/-- The rule of an active row is listed. -/
theorem mem_activeRules_of_row (listed : store.activeRules scope = .ok rules) {row : DetectionRow}
    (active : row ∈ store.activeRows scope) {rule : Sigma.Rule}
    (built : row.rule? = .ok (some rule)) : rule ∈ rules := by
  obtain ⟨found, mapped, same⟩ := bind_eq_ok.1 listed
  cases same
  obtain ⟨option, inFound, one⟩ := exists_of_forall₂ (mapM_eq_ok.1 mapped).flip active
  cases built.symm.trans one
  exact List.reduceOption_mem_iff.2 inFound

/-- What is listed has distinct keys. -/
theorem keysDistinct_of_listed (sound : ∀ row ∈ store.detectionRules, row.Sound)
    (listed : store.activeRules scope = .ok rules) {rule : Sigma.Rule} (member : rule ∈ rules) :
    rule.KeysDistinct := by
  obtain ⟨row, active, built⟩ := mem_activeRules listed member
  exact (sound row (List.mem_filter.1 active).1).keysDistinct built

end Sound

end Store

/-! ## What a service adds -/

namespace Service

variable {service : Service}

theorem saveRule_adds (service : Service) (raw : Value) (options : Store.RuleOptions) :
    Store.Adds service.store (service.saveRule raw options).2.store := by
  unfold saveRule
  split
  · exact .of_eq rfl
  · rename_i rule ids read
    unfold change
    split
    · exact .of_eq rfl
    · rename_i saved
      obtain ⟨row, -, stores, -, -, -, rfl⟩ := Store.saveRule_stores saved
      exact .one (stores.sound (Sigma.keyed_of_ofValue read)) rfl

/-- **One activity adds sound rows only, and takes none away.** -/
theorem perform_adds (service : Service) (activity : Activity) :
    Store.Adds service.store (service.perform activity).store := by
  cases activity with
  | imports noService request =>
      exact Store.importRule_adds service.store service.ids noService request
  | saves raw options => exact service.saveRule_adds raw options
  | processes data source =>
      refine .of_eq ?_
      simp only [perform, processBatch]
      split <;> rfl
  | evaluates | evaluatesBatch | loads | invalidates | consumes | restarts | elsewhere =>
      exact .of_eq rfl

/-- So does a run. -/
theorem performAll_adds (service : Service) (activities : List Activity) :
    Store.Adds service.store (service.performAll activities).store := by
  induction activities generalizing service with
  | nil => exact .of_eq rfl
  | cons activity rest ih => exact (service.perform_adds activity).trans (ih _)

/-- All rows of a service are sound. -/
theorem Reached.sound (reached : service.Reached) :
    ∀ row ∈ service.store.detectionRules, row.Sound := by
  obtain ⟨origin, activities, rfl⟩ := reached
  obtain ⟨rows, same, sound⟩ := origin.withoutRules.performAll_adds activities
  rw [same]
  exact sound

theorem Reached.performAll (reached : service.Reached) (activities : List Activity) :
    (service.performAll activities).Reached := by
  obtain ⟨origin, earlier, rfl⟩ := reached
  exact ⟨origin, earlier ++ activities, (List.foldl_append ..).symm⟩

theorem Reached.importRule (reached : service.Reached) (noService : Option String)
    (request : ImportRequest) : (service.importRule noService request).2.Reached :=
  reached.performAll [.imports noService request]

/-! ## Whether an imported rule is listed -/

/-- **An imported rule is listed from then on, with one constraint for each key.** It is listed as
it was imported exactly if the keys of each of its selections are distinct. -/
theorem imported_listed_iff {service : Service} (reached : service.Reached)
    (plain : Text.trim service.ids.stem = service.ids.stem) (noService : Option String)
    (request : ImportRequest) (result : ImportResult)
    (ended : (service.importRule noService request).1 = .ok result) (ok : result.isOk = true)
    (activities : List Activity) :
    ∃ rule organization rules, result.rule = some rule ∧
      request.organization = some organization ∧
      ((service.importRule noService request).2.performAll activities).store.activeRules
        ⟨organization, request.project⟩ = .ok rules ∧
      rule.merged ∈ rules ∧ (rule ∈ rules ↔ rule.KeysDistinct) := by
  have sound := ((reached.importRule noService request).performAll activities).sound
  have adds := (service.importRule noService request).2.performAll_adds activities
  rcases Store.importRule_cases (Prod.eta (service.store.importRule service.ids noService
    request)).symm with ⟨-, failed⟩ | ⟨result', rule, row, ended', ofRule, imports⟩
  · exact absurd ok (by rw [failed result ended]; exact Bool.false_ne_true)
  · cases ended.symm.trans ended'
    obtain ⟨raw, names, loaded, valid, read⟩ := imports.read
    have settled : rule.Settled :=
      Sigma.settled_of_ofValue (plain ▸ Text.trimmed_trim _) valid read
    have exact : rule.Exact := Sigma.exact_of_ofValue (Yaml.load_exact loaded) read
    obtain ⟨rules, listed⟩ := Store.activeRules_total sound ⟨row.organization, request.project⟩
    have member : rule.merged ∈ rules := Store.mem_activeRules_of_row listed
      (imports.activeRow adds) (DetectionRow.rule?_of_stores imports.stores settled exact)
    refine ⟨rule, row.organization, rules, ofRule, imports.organization, listed, member, ?_, ?_⟩
    · exact fun whole => Store.keysDistinct_of_listed sound listed whole
    · exact fun distinct => Sigma.Rule.merged_eq_self_iff.2 distinct ▸ member

/-! ## Two constraints on one field -/

/-- A rule text is imported with one selection of two constraints.  The first one is on the field
`a` with the modifier `contains`, and the second one has the given key. -/
def importFields (second : String) : ImportRequest :=
  { text := "title: T\nid: s\nlogsource: \x7b\x7d\ndetection:\n  sel:\n    a|contains: x\n    " ++
      second ++ ": y\n  condition: sel\n"
    organization := some "o", project := some "own", recipients := [], webhook := none
    wantsAlertRule := false }

/-- A service before any import. -/
def noImports : Service := { twoProjects with store := .empty, ids := ⟨"gen", 0⟩ }.withoutRules

theorem noImports_reached : noImports.Reached := ⟨_, [], rfl⟩

/-- The import ends well, with a rule of which the test holds. -/
theorem exists_imported {outcome : Except StoreError ImportResult} {test : Sigma.Rule → Bool}
    (passes : (outcome.toOption.any fun result => result.isOk && result.rule.any test) = true) :
    ∃ result rule, outcome = .ok result ∧ result.isOk = true ∧ result.rule = some rule ∧
      test rule = true := by
  cases outcome with
  | error e => cases passes
  | ok result =>
      simp only [Except.toOption, Option.any_some, Bool.and_eq_true] at passes
      obtain ⟨rule, ofRule, holds⟩ := (Option.any_eq_true _ _).1 passes.2
      exact ⟨result, rule, rfl, passes.1, ofRule, holds⟩

theorem importFields_other : ∃ result rule,
    (noImports.importRule none (importFields "b")).1 = .ok result ∧ result.isOk = true ∧
      result.rule = some rule ∧ decide rule.KeysDistinct = true :=
  exists_imported (by decide +kernel)

theorem importFields_equal : ∃ result rule,
    (noImports.importRule none (importFields "a | Contains")).1 = .ok result ∧
      result.isOk = true ∧ result.rule = some rule ∧ (!decide rule.KeysDistinct) = true :=
  exists_imported (by decide +kernel)

theorem imported_listed_iff_other_field : ∃ rule rules,
    ((noImports.importRule none (importFields "b")).2.performAll []).store.activeRules
      ⟨"o", some "own"⟩ = .ok rules ∧
    rule.merged ∈ rules ∧ (rule ∈ rules ↔ rule.KeysDistinct) ∧ rule.KeysDistinct := by
  obtain ⟨result, rule, ended, ok, ofRule, distinct⟩ := importFields_other
  obtain ⟨rule', organization, rules, ofRule', own, listed⟩ :=
    imported_listed_iff noImports_reached (by decide +kernel) none (importFields "b") result ended
      ok []
  cases own
  cases ofRule.symm.trans ofRule'
  exact ⟨rule, rules, listed.1, listed.2.1, listed.2.2, of_decide_eq_true distinct⟩

/-- **A rule can be listed otherwise than it was imported**: of two constraints with the same key,
one is left. -/
theorem equal_keys_not_listed :
    ¬ ∀ service : Service, service.Reached → Text.trim service.ids.stem = service.ids.stem →
      ∀ (noService : Option String) (request : ImportRequest) (result : ImportResult),
        (service.importRule noService request).1 = .ok result → result.isOk = true →
        ∃ rule organization rules, result.rule = some rule ∧
          request.organization = some organization ∧
          (service.importRule noService request).2.store.activeRules
            ⟨organization, request.project⟩ = .ok rules ∧ rule ∈ rules := by
  intro whole
  obtain ⟨result, rule, ended, ok, ofRule, equal⟩ := importFields_equal
  obtain ⟨rule', organization, rules, ofRule', -, listed, member⟩ :=
    whole noImports noImports_reached (by decide +kernel) none (importFields "a | Contains")
      result ended ok
  cases ofRule.symm.trans ofRule'
  have sound := (noImports_reached.importRule none (importFields "a | Contains")).sound
  have distinct := Store.keysDistinct_of_listed sound listed member
  simp only [distinct, decide_true, Bool.not_true, Bool.false_eq_true] at equal

end Service

end LogAlert
