/-
# LogAlert.Proofs.Store.Reported -- when an import changes what it reports

An import reads a text, converts the rule and adds at most two rows, each in a change of its own.
There is but one cause for which the second change can fail behind the first one.  An alert rule is
only added if the detection was printed before, with dates and the like as texts, and a detection that
was read from a valid document has none of these (`Detection.Settled.chars_eq`).  But the two rows do
not have the same texts: the identifier, the description, the author and the date of a rule are
encoded with the second one only, and fail to be if they have surrogates.  Then the alert rule is left
behind (`importRule_leaves`).

Main statement: unless it leaves an alert rule behind, an import that fails, or that reports an error,
changes nothing; one that ends well adds the rows that it reports and nothing else, and each list of
rules gains exactly what belongs to it (`import_changes_reported_iff`).
-/
import LogAlert.Proofs.Alert.Conversion
import LogAlert.Proofs.Sigma.Closed
import LogAlert.Proofs.Store.Listing

set_option autoImplicit false

namespace LogAlert

/-! ## What can be printed can be stored -/

namespace Json

variable {first second : Strays}

theorem itemsChars_congr {items : List Value}
    (each : ∀ v ∈ items, chars first v = chars second v) :
    itemsChars first items = itemsChars second items := by
  induction items with
  | nil => rfl
  | cons v rest ih =>
      rw [itemsChars, itemsChars, each v List.mem_cons_self,
        ih fun w member => each w (List.mem_cons_of_mem v member)]

theorem entriesChars_congr {entries : List Value.Entry}
    (each : ∀ entry ∈ entries, chars first entry.2 = chars second entry.2) :
    entriesChars first entries = entriesChars second entries := by
  induction entries with
  | nil => rfl
  | cons entry rest ih =>
      rw [entriesChars, entriesChars, each entry List.mem_cons_self,
        ih fun other member => each other (List.mem_cons_of_mem entry member)]

theorem list_chars_congr {items : List Value}
    (each : ∀ v ∈ items, chars first v = chars second v) :
    chars first (.list items) = chars second (.list items) := by
  rw [chars, chars, itemsChars_congr each]

theorem map_chars_congr {entries : List Value.Entry}
    (each : ∀ entry ∈ entries, chars first entry.2 = chars second entry.2) :
    chars first (.map entries) = chars second (.map entries) := by
  rw [chars, chars, entriesChars_congr each]

end Json

namespace Sigma

variable (first second : Json.Strays)

theorem chars_eq_of_scalar {v : Value} (scalar : isScalar v = true) (dated : v.dated = v) :
    Json.chars first v = Json.chars second v := by
  cases v with
  | date d => cases dated
  | time t => cases dated
  | null | bool | int | float | text => rfl
  | _ => cases scalar

theorem Constraint.Settled.chars_written {c : Constraint} (settled : c.Settled) :
    Json.chars first c.written = Json.chars second c.written := by
  have each : ∀ v ∈ c.values, Json.chars first v = Json.chars second v := fun v member =>
    chars_eq_of_scalar first second (settled.scalars v member) (settled.dated v member)
  unfold written
  split
  · exact Json.list_chars_congr each
  · rename_i single
    obtain ⟨v, same⟩ := settled.single (by simpa using single)
    rw [same] at each ⊢
    exact each v (List.mem_singleton_self v)

theorem Selection.chars_toValue {s : Selection} (settled : s.All Constraint.Settled) :
    Json.chars first s.toValue = Json.chars second s.toValue := by
  cases s with
  | keywords words =>
      refine Json.list_chars_congr fun v member => ?_
      obtain ⟨word, -, rfl⟩ := List.mem_map.1 member
      rfl
  | other v => cases settled
  | fields constraints =>
      rw [toValue_fields]
      refine Json.map_chars_congr fun entry member => ?_
      obtain ⟨p, inParts, rfl⟩ := Value.mem_named member
      obtain ⟨c, kept, rfl⟩ := List.mem_map.1 inParts
      exact (settled c (mem_collapse kept)).chars_written first second

/-- A settled detection is printed alike whatever is done with values that JSON has no form for. -/
theorem Detection.Settled.chars_eq {d : Detection} (settled : d.Settled) :
    Json.chars first d.toValue = Json.chars second d.toValue := by
  rw [settled.keyed.toValue_eq]
  refine Json.map_chars_congr fun entry member => ?_
  obtain ⟨p, inParts, rfl⟩ := Value.mem_named member
  rcases List.mem_append.1 inParts with selection | other
  · obtain ⟨s, inSelections, rfl⟩ := List.mem_map.1 selection
    exact Selection.chars_toValue first second (settled.settled s inSelections)
  · obtain ⟨t, text⟩ := text_of_mem_otherParts other
    rw [text]
    rfl

theorem LogSource.chars_total (source : LogSource) :
    ∃ cs, Json.chars first source.toValue = .ok cs := by
  obtain ⟨product, service, category, definition⟩ := source
  cases product <;> cases service <;> cases category <;> cases definition <;> exact ⟨_, rfl⟩

end Sigma

namespace Store

theorem column_total {v : Value} (printed : ∃ cs, Json.chars .refused v = .ok cs) :
    ∃ w, column v = .ok w := by
  obtain ⟨cs, printed⟩ := printed
  have text : Json.print .refused v = .ok (String.ofList cs) := by rw [Json.print, printed]; rfl
  refine ⟨Json.reread v, ?_⟩
  rw [column, text]
  dsimp only
  rw [Json.read?_print (by rintro _ ⟨⟩; exact Nat.le_refl _) text]

/-- Saving a settled rule whose detection can be printed does not fail, if there is an owner. -/
theorem saveRule_ne_error {rule : Sigma.Rule} (settled : rule.Settled) {strays : Json.Strays}
    (printed : ∃ cs, Json.chars strays rule.detection.toValue = .ok cs) {options : RuleOptions}
    {organization : String} (owned : options.organization = some organization) (store : Store)
    (ids : Ids) (e : StoreError) : store.saveRule ids rule options ≠ .error e := by
  obtain ⟨logsource, ofSource⟩ := column_total (rule.logsource.chars_total .refused)
  obtain ⟨detection, ofDetection⟩ :=
    column_total (settled.detection.chars_eq .refused strays ▸ printed)
  obtain ⟨level, -, ofLevel⟩ := settled.level
  obtain ⟨status, -, ofStatus⟩ := settled.status
  rw [saveRule, ofSource, ok_bind, ofDetection, ok_bind, ofLevel, ofStatus, owned]
  exact nofun

end Store

/-! ## Lists that grow -/

namespace Store

/-- What belongs to a project, or to all projects, is listed for the project, and everything is if no
project is given. -/
def ListedFor (asked own : Option String) : Prop :=
  Sigma.given asked = none ∨ own = none ∨ own = asked

instance (asked own : Option String) : Decidable (ListedFor asked own) :=
  inferInstanceAs (Decidable (_ ∨ _ ∨ _))

theorem inScope_iff {asked own : Option String} :
    inScope asked own = true ↔ ListedFor asked own := by
  unfold inScope ListedFor
  cases known : Sigma.given asked with
  | none => simp
  | some name =>
      have same : asked = some name := (Option.filter_eq_some_iff.1 known).1
      simp [same, Option.isNone_iff_eq_none, or_comm]

variable {before after : Store}

/-- An active row behind the others is among the active rows of the scopes that it belongs to. -/
theorem activeRows_concat {row : DetectionRow}
    (rows : after.detectionRules = before.detectionRules ++ [row])
    (active : row.conversionStatus.any (activeStatuses.contains ·) = true) (scope : Scope) :
    after.activeRows scope = before.activeRows scope ++
      if row.organization = scope.organization ∧ ListedFor scope.project row.project then [row]
      else [] := by
  rw [activeRows, activeRows, rows, List.filter_append, List.filter_singleton]
  simp only [active, Bool.and_true, Bool.cond_eq_ite, Bool.and_eq_true, decide_eq_true_eq,
    inScope_iff]

/-- Its rule is listed there behind the others. -/
theorem activeRules_concat {row : DetectionRow} {listed : Sigma.Rule}
    (rows : after.detectionRules = before.detectionRules ++ [row])
    (active : row.conversionStatus.any (activeStatuses.contains ·) = true)
    (built : row.rule? = .ok (some listed)) (scope : Scope) :
    after.activeRules scope = (before.activeRules scope).map (· ++
      if row.organization = scope.organization ∧ ListedFor scope.project row.project then [listed]
      else []) := by
  rw [activeRules, activeRules, activeRows_concat rows active]
  by_cases belongs : row.organization = scope.organization ∧ ListedFor scope.project row.project
  · rw [if_pos belongs, if_pos belongs, mapM_concat built]
    cases (before.activeRows scope).mapM DetectionRow.rule? with
    | error fault => rfl
    | ok found => exact congrArg Except.ok (List.reduceOption_append found [some listed])
  · rw [if_neg belongs, if_neg belongs, List.append_nil]
    cases (before.activeRows scope).mapM DetectionRow.rule? with
    | error fault => rfl
    | ok found => exact congrArg Except.ok (List.append_nil _).symm

/-- Enabled alert rules of one owner are listed, behind the others, where the owner and the project
are asked for. -/
theorem enabledAlertRules_append {rules : List Alert.Rule}
    (appended : after.alertRules = before.alertRules ++ rules) {owner project : Option String}
    (each : ∀ rule ∈ rules, rule.enabled = true ∧ owner = some rule.organization ∧
      rule.project = project) (organization asked : Option String) :
    after.enabledAlertRules organization asked = before.enabledAlertRules organization asked ++
      if (Sigma.given organization = none ∨ owner = organization) ∧ ListedFor asked project then rules
      else [] := by
  have applies : ∀ rule ∈ rules, (rule.enabled &&
      (Sigma.given organization).all (· = rule.organization) && inScope asked rule.project) =
        decide ((Sigma.given organization = none ∨ owner = organization) ∧
          ListedFor asked project) := by
    intro rule member
    obtain ⟨enabled, rfl, rfl⟩ := each rule member
    have owned : (Sigma.given organization).all (· = rule.organization) = true ↔
        Sigma.given organization = none ∨ some rule.organization = organization := by
      cases known : Sigma.given organization with
      | none => simp
      | some name =>
          have same : organization = some name := (Option.filter_eq_some_iff.1 known).1
          simp [same, eq_comm]
    rw [Bool.eq_iff_iff, decide_eq_true_iff, ← owned, ← inScope_iff]
    simp only [enabled, Bool.true_and, Bool.and_eq_true]
  rw [enabledAlertRules, enabledAlertRules, appended, List.filter_append, List.filter_congr applies]
  by_cases belongs : (Sigma.given organization = none ∨ owner = organization) ∧
      ListedFor asked project
  · rw [if_pos belongs, List.filter_eq_self.2 fun _ _ => decide_eq_true belongs]
  · rw [if_neg belongs, List.filter_eq_nil_iff.2 fun _ _ => mt of_decide_eq_true belongs]

/-! ## What an import reports -/

/-- The result reports a row of a detection rule and one of an alert rule if one was wanted; these
are the rows that were added, and the lists of rules gain what belongs to them and nothing else. -/
structure Reports (before : Store) (request : ImportRequest) (result : ImportResult)
    (after : Store) (row : DetectionRow) (alertRule : Option Alert.Rule) (listed : Sigma.Rule) :
    Prop where
  record : result.record = some row.id
  named : result.alertRule = alertRule.map (·.id)
  wanted : alertRule.isSome = request.wantsAlertRule
  rule : result.rule.map Sigma.Rule.merged = some listed
  tables : after = { before with
    alertRules := before.alertRules ++ alertRule.toList
    detectionRules := before.detectionRules ++ [row] }
  active (scope : Scope) : after.activeRules scope = (before.activeRules scope).map (· ++
    if request.organization = some scope.organization ∧ ListedFor scope.project request.project
    then [listed] else [])
  enabled (organization asked : Option String) : after.enabledAlertRules organization asked =
    before.enabledAlertRules organization asked ++
      if (Sigma.given organization = none ∨ request.organization = organization) ∧
        ListedFor asked request.project then alertRule.toList else []

/-- How an import can end, and what has changed then. -/
inductive ChangesReported (before : Store) (request : ImportRequest) :
    Except StoreError ImportResult → Store → Prop where
  /-- It fails, and no table changes. -/
  | failed (e : StoreError) : ChangesReported before request (.error e) before
  /-- The result has errors, and no table changes. -/
  | rejected {result : ImportResult} (errors : result.errors ≠ []) :
      ChangesReported before request (.ok result) before
  /-- It ends well, and the rows that the result reports are added. -/
  | stored {result : ImportResult} {after : Store} {row : DetectionRow}
      {alertRule : Option Alert.Rule} {listed : Sigma.Rule} (well : result.isOk = true)
      (reports : before.Reports request result after row alertRule listed) :
      ChangesReported before request (.ok result) after

theorem ChangesReported.unchanged_of_error {request : ImportRequest} {e : StoreError}
    (changes : before.ChangesReported request (.error e) after) : after = before := by
  cases changes
  rfl

variable {store : Store} {ids ids' : Ids} {request : ImportRequest} {alertRule : Option Alert.Rule}

/-- The rows that are there before the rule itself. -/
theorem StoresFirst.alertRules {rule shown : Sigma.Rule} {draft? : Option Alert.Draft}
    (first : StoresFirst store ids request rule shown draft? alertRule after ids') :
    after = { store with alertRules := store.alertRules ++ alertRule.toList } ∧
      alertRule.isSome = request.wantsAlertRule := by
  cases first with
  | nothing unwanted =>
      refine ⟨?_, unwanted.symm⟩
      rw [Option.toList_none, List.append_nil]
  | alertRule wanted drafted encoded creates => exact ⟨(createAlertRule_ok creates).1, wanted.symm⟩

/-- An alert rule of an enabled draft is enabled for the owner and the project of the request. -/
theorem StoresFirst.listed {rule shown : Sigma.Rule} {draft? : Option Alert.Draft}
    (first : StoresFirst store ids request rule shown draft? alertRule after ids')
    (enabled : ∀ draft, draft? = some draft → draft.enabled = true) :
    ∀ rule ∈ alertRule.toList, rule.enabled = true ∧
      request.organization = some rule.organization ∧ rule.project = request.project := by
  cases first with
  | nothing unwanted => exact nofun
  | alertRule wanted drafted encoded creates =>
      obtain ⟨owned, project, kept⟩ := createAlertRule_copies creates
      intro rule member
      cases List.mem_singleton.1 member
      exact ⟨kept.trans (enabled _ drafted), owned, project⟩

/-! ## What an import can leave behind -/

/-- The rule has an alert rule that is wanted and can be stored, while a text of the rule itself has
surrogates. -/
def leaves (request : ImportRequest) (rule shown : Sigma.Rule) (conversion : Alert.Conversion) :
    Bool :=
  request.wantsAlertRule && request.organization.isSome && conversion.draft?.isSome &&
    (unencodable? (alertTexts rule) (alertTexts shown)).isNone &&
    (unencodable? (ruleTexts rule) (ruleTexts shown)).isSome

/-- The rule of the text is such a rule. -/
def importLeaves (ids : Ids) (noService : Option String) (request : ImportRequest) : Bool :=
  match Sigma.parse ids request.text with
  | (.ok (.rule rule _), _) =>
    leaves request rule (Sigma.shownRule ids rule request.text)
      (Alert.convert noService rule request.recipients request.webhook)
  | _ => false

section Leaves

variable {rule shown : Sigma.Rule} {lint : List String} {noService : Option String}
  {recipients : List String} {webhook : Option String} {outcome : Except StoreError ImportResult}

theorem leaves_iff {conversion : Alert.Conversion} :
    leaves request rule shown conversion = true ↔
      request.wantsAlertRule = true ∧ request.organization.isSome = true ∧
        conversion.draft?.isSome = true ∧
        unencodable? (alertTexts rule) (alertTexts shown) = none ∧
        (unencodable? (ruleTexts rule) (ruleTexts shown)).isSome = true := by
  simp only [leaves, Bool.and_eq_true, Option.isNone_iff_eq_none, and_assoc]

/-- An alert rule that was converted can be stored if its owner is given and its texts are encoded. -/
theorem storeAlertRule_total (store : Store) (ids : Ids) {draft : Alert.Draft}
    (owned : request.organization.isSome = true)
    (drafted : (Alert.convert noService rule recipients webhook).draft? = some draft)
    (encoded : unencodable? (alertTexts rule) (alertTexts shown) = none) (e : StoreError) :
    store.storeAlertRule ids request rule shown draft ≠ .error e := by
  obtain ⟨⟨threshold, window, severity, same⟩, -⟩ := Alert.convert_draft drafted
  obtain ⟨fits, fitsWindow⟩ := Alert.severityOf_fits severity
  obtain ⟨created, creates⟩ := store.createAlertRule_draft ids draft owned request.project
    (by rw [same]; exact fits) (by rw [same]; exact fitsWindow)
  unfold storeAlertRule
  split
  · dsimp only at creates ⊢
    rw [encoding_eq_ok.2 ⟨encoded, creates⟩]
    exact nofun
  · exact nofun

/-- **An alert rule is left behind**: it stays in the store although the import fails. -/
theorem ConvertedEnds.leaves
    (ends : ConvertedEnds store ids request rule shown lint
      (Alert.convert noService rule recipients webhook) outcome after ids')
    (isLeft : leaves request rule shown (Alert.convert noService rule recipients webhook) = true) :
    ∃ e alertRule, outcome = .error e ∧
      after = { store with alertRules := store.alertRules ++ [alertRule] } := by
  obtain ⟨wanted, owned, converted, encoded, unencodable⟩ := leaves_iff.1 isLeft
  cases ends with
  | withoutAlertRule drafted failed =>
      exact absurd failed (storeAlertRule_total _ _ owned drafted encoded _)
  | unconverted none =>
      rw [none] at converted
      cases converted
  | unsaved first failed =>
      cases first with
      | nothing unwanted => exact absurd wanted (by rw [unwanted]; exact Bool.false_ne_true)
      | alertRule wanted drafted encoded creates =>
          exact ⟨_, _, rfl, (createAlertRule_ok creates).1⟩
  | saved first saved =>
      rw [(encoding_eq_ok.1 saved).1] at unencodable
      cases unencodable

/-- Nothing else is left behind. -/
theorem StoresFirst.unchanged_of_unsaved {status notes : String} {named : Option String}
    {e : StoreError} {middle : Store} {names : Ids} (settled : rule.Settled)
    (first : StoresFirst store ids request rule shown
      (Alert.convert noService rule recipients webhook).draft? alertRule middle names)
    (none : leaves request rule shown (Alert.convert noService rule recipients webhook) = false)
    (failed : middle.storeRule names request rule shown status notes named = .error e) :
    middle = store := by
  cases first with
  | nothing unwanted => rfl
  | alertRule wanted drafted encoded creates =>
      obtain ⟨-, printed⟩ := Alert.convert_draft drafted
      obtain ⟨owned, -, -⟩ := createAlertRule_copies creates
      have encodes : unencodable? (ruleTexts rule) (ruleTexts shown) = Option.none := by
        by_contra some
        rw [← Bool.not_eq_true, leaves_iff] at none
        exact none ⟨wanted, Option.isSome_of_eq_some owned, Option.isSome_of_eq_some drafted, encoded,
          Option.isSome_iff_ne_none.2 some⟩
      rw [storeRule, encodes] at failed
      exact absurd failed (saveRule_ne_error settled printed owned middle names e)

theorem ConvertedEnds.changesReported (settled : rule.Settled) (exact : rule.Exact)
    (ends : ConvertedEnds store ids request rule shown lint
      (Alert.convert noService rule request.recipients request.webhook) outcome after ids')
    (none : Store.leaves request rule shown
      (Alert.convert noService rule request.recipients request.webhook) = false) :
    store.ChangesReported request outcome after := by
  cases ends with
  | withoutAlertRule drafted failed => exact .failed _
  | unconverted none => exact .rejected (Alert.Conversion.errors_ne_nil none)
  | unsaved first failed =>
      cases first.unchanged_of_unsaved settled none failed
      exact .failed _
  | @saved alertRule _ _ _ _ _ first saved =>
      obtain ⟨row, rfl, stores, owned, project, status, tables⟩ :=
        saveRule_stores (encoding_eq_ok.1 saved).2
      obtain ⟨rfl, wanted⟩ := first.alertRules
      have rows : after.detectionRules = store.detectionRules ++ [row] :=
        congrArg detectionRules tables
      have alertRules : after.alertRules = store.alertRules ++ alertRule.toList :=
        congrArg Store.alertRules tables
      have active : row.conversionStatus.any (activeStatuses.contains ·) = true :=
        status ▸ importStatus_active lint
      have built := DetectionRow.rule?_of_stores stores settled exact
      have listed := first.listed fun draft drafted => by
        obtain ⟨⟨threshold, window, -, rfl⟩, -⟩ := Alert.convert_draft drafted
        rfl
      exact .stored rfl {
        record := rfl
        named := rfl
        wanted := wanted
        rule := rfl
        tables := tables
        active := fun scope => by
          have owner : request.organization = some row.organization := owned
          have own : row.project = request.project := project
          simp only [owner, Option.some.injEq, ← own]
          exact activeRules_concat rows active built scope
        enabled := enabledAlertRules_append alertRules listed }

end Leaves

/-- An alert rule that is left behind is reported by nobody. -/
theorem importRule_leaves (store : Store) {noService : Option String}
    (isLeft : importLeaves ids noService request = true) :
    ∃ e alertRule, (store.importRule ids noService request).1 = .error e ∧
      (store.importRule ids noService request).2.1 =
        { store with alertRules := store.alertRules ++ [alertRule] } := by
  unfold importLeaves at isLeft
  unfold importRule
  split at isLeft
  · rename_i rule lint names read
    rw [read]
    exact (storeConverted_ends store names request rule _ lint _).leaves isLeft
  · cases isLeft

/-- **When an import changes exactly what it reports.**  For every store, text, owner, project,
recipients and wishes: exactly if no alert rule is left behind, no table changes by an import that
fails or whose result carries errors, and any other import ended well, and the rows that it reports
are what was added. -/
theorem import_changes_reported_iff (store : Store) (ids : Ids)
    (plain : Text.trim ids.stem = ids.stem) (noService : Option String) (request : ImportRequest) :
    store.ChangesReported request (store.importRule ids noService request).1
      (store.importRule ids noService request).2.1 ↔ importLeaves ids noService request = false := by
  constructor
  · intro changes
    by_contra isLeft
    rw [Bool.not_eq_false] at isLeft
    obtain ⟨e, alertRule, failed, left⟩ := store.importRule_leaves isLeft
    rw [failed, left] at changes
    have unchanged := congrArg (fun table => table.alertRules.length) changes.unchanged_of_error
    simp at unchanged
  · intro none
    unfold importLeaves at none
    unfold importRule
    split
    · exact .failed _
    · rename_i errors names read
      rcases Sigma.closed_of_parse read with ⟨rule, isRule, -⟩ | ⟨-, some⟩
      · cases isRule
      · exact .rejected some
    · rename_i rule lint names read
      obtain ⟨raw, middle, loaded, valid, ofRaw⟩ := Sigma.parse_rule read
      rw [read] at none
      exact (storeConverted_ends store names request rule _ lint _).changesReported
        (Sigma.settled_of_ofValue (plain ▸ Text.trimmed_trim _) valid ofRaw)
        (Sigma.exact_of_ofValue (Yaml.load_exact loaded) ofRaw) none

/-- The rows of an import that ended well. -/
theorem ChangesReported.reports {outcome : Except StoreError ImportResult}
    (changes : before.ChangesReported request outcome after)
    (well : outcome.toOption.any (·.isOk) = true) : ∃ result row alertRule listed,
      outcome = .ok result ∧ before.Reports request result after row alertRule listed := by
  cases changes with
  | failed e => cases well
  | @rejected result errors =>
      have ended : result.isOk = true := well
      rw [ImportResult.isOk, Bool.and_eq_true, List.isEmpty_iff] at ended
      exact absurd ended.2 errors
  | stored _ reports => exact ⟨_, _, _, _, rfl, reports⟩

/-- A rule is imported together with an alert rule. -/
def bothRules : ImportRequest :=
  { text := "title: T\nid: s\nlogsource: \x7b\x7d\ndetection:\n  kw: [x]\n  condition: kw\n"
    organization := some "o", project := none, recipients := [], webhook := none
    wantsAlertRule := true }

theorem import_changes_reported_iff_both_rules : ∃ result row alertRule listed,
    (empty.importRule ⟨"gen", 0⟩ none bothRules).1 = .ok result ∧
      empty.Reports bothRules result (empty.importRule ⟨"gen", 0⟩ none bothRules).2.1 row
        (some alertRule) listed := by
  have plain : Text.trim (⟨"gen", 0⟩ : Ids).stem = (⟨"gen", 0⟩ : Ids).stem := by decide +kernel
  have none : importLeaves ⟨"gen", 0⟩ none bothRules = false := by decide +kernel
  have well : (empty.importRule ⟨"gen", 0⟩ .none bothRules).1.toOption.any (·.isOk) = true := by
    decide +kernel
  obtain ⟨result, row, alertRule, listed, ended, reports⟩ :=
    ((import_changes_reported_iff empty ⟨"gen", 0⟩ plain .none bothRules).2 none).reports well
  obtain ⟨rule, rfl⟩ := Option.isSome_iff_exists.1 reports.wanted
  exact ⟨result, row, rule, listed, ended, reports⟩

/-- The same rule with a surrogate for its date. -/
def surrogateDate : ImportRequest :=
  { bothRules with
    text := "title: T\nid: s\nlogsource: \x7b\x7d\ndetection:\n  kw: [x]\n  condition: kw\n" ++
      "date: \"\\ud800\"\n" }

/-- **An import that fails can leave an alert rule behind.** -/
theorem surrogate_leaves_alert_rule :
    ¬ ∀ (store : Store) (ids : Ids) (request : ImportRequest),
      store.ChangesReported request (store.importRule ids none request).1
        (store.importRule ids none request).2.1 := by
  intro all
  have isLeft : importLeaves ⟨"gen", 0⟩ none surrogateDate = true := by decide +kernel
  obtain ⟨e, alertRule, failed, left⟩ := empty.importRule_leaves isLeft
  have changes := all empty ⟨"gen", 0⟩ surrogateDate
  rw [failed, left] at changes
  cases congrArg Store.alertRules changes.unchanged_of_error

end Store

end LogAlert
