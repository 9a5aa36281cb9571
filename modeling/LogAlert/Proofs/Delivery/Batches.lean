/-
# LogAlert.Proofs.Delivery.Batches -- what a batch puts on the queue

When a batch is processed, each row that matched is looked up in the store, and if somebody is to be
told, one command is sent that queues the notification.  A lookup can fail or find nothing, a command
can be lost, and a number can be too long to be written; each of these is the end of one notification
and of no other.

So every row that matched has a `Fate` of its own, and the fates are those of the coming lookups and
commands (`Meets`).  The queue gains one notification for each row that is found, announced and sent
(`told`), in the order of the first matches, and nothing else (`notifyAll_told`).

Main statement: `batch_told`, for services whose rules were imported.
-/
import LogAlert.Proofs.Alert.Decoupled
import LogAlert.Proofs.Delivery.Groups
import LogAlert.Proofs.Delivery.Identity
import LogAlert.Proofs.Store.Ready

set_option autoImplicit false

namespace LogAlert

open List

/-- The rows of the organization can be told apart: the identifiers of their rules are distinct, and
none of these is the identifier of another row. -/
structure Store.Distinguishes (store : Store) (organization : String) : Prop where
  distinct : ((store.detectionRules.filter (·.organization = organization)).map (·.sigmaId)).Nodup
  apart : ∀ row ∈ store.detectionRules, ∀ other ∈ store.detectionRules,
    row.organization = organization → other.organization = organization →
      row.sigmaId = other.id → row.id = other.id

section Distinguishes

variable {store : Store} {organization : String} {row other : DetectionRow}

/-- Rows with the same rule are one row. -/
theorem Store.Distinguishes.eq_of_sigmaId (distinguishes : store.Distinguishes organization)
    (stored : row ∈ store.detectionRules) (own : row.organization = organization)
    (stored' : other ∈ store.detectionRules) (own' : other.organization = organization)
    (same : row.sigmaId = other.sigmaId) : row = other :=
  inj_on_of_nodup_map distinguishes.distinct (mem_filter.2 ⟨stored, decide_eq_true own⟩)
    (mem_filter.2 ⟨stored', decide_eq_true own'⟩) same

/-- A row is found by the identifier of its rule. -/
theorem Store.Distinguishes.finds {ids : Ids} (distinguishes : store.Distinguishes organization)
    (keyed : store.Keyed ids) (stored : row ∈ store.detectionRules)
    (own : row.organization = organization) :
    store.findRule? organization row.sigmaId = some row := by
  cases search : store.findRule? organization row.sigmaId with
  | none => simpa [own] using find?_eq_none.1 search row stored
  | some found =>
      have stored' := findRule?_mem search
      have means := find?_some search
      simp only [Bool.and_eq_true, Bool.or_eq_true, decide_eq_true_eq] at means
      obtain ⟨own', sameRule | sameRow⟩ := means
      · rw [distinguishes.eq_of_sigmaId stored' own' stored own sameRule]
      · have sameId := distinguishes.apart row stored found stored' own own' sameRow.symm
        rw [keyed.eq_of_id stored stored' sameId]

end Distinguishes

theorem DetectionRow.Ready.builtRule {row : DetectionRow} (ready : row.Ready) :
    row.rule? = .ok (some row.builtRule) ∧ row.builtRule.id = row.sigmaId := by
  obtain ⟨rule, built, named, -⟩ := ready
  have same : row.builtRule = rule := by rw [DetectionRow.builtRule, built?, built]; rfl
  exact ⟨same ▸ built, same ▸ named⟩

namespace Delivery

/-! ## Fates -/

/-- How the coming lookups end. -/
def Lookup.next : Nat → List Lookup → List Lookup
  | 0, _ => []
  | n + 1, lookups => lookups.headD .answered :: next n lookups.tail

/-- What becomes of the notification of a row: how its lookup ends, and whether its command is
carried out. -/
structure Fate where
  lookup : Lookup
  sent : Bool

/-- The row is looked up with success. -/
def Fate.found (fate : Fate) : Bool := fate.lookup = .answered

/-- Somebody is to be told of the matches of the row, and their number is short enough to be
written. -/
def announces (count : DetectionRow → Nat) (row : DetectionRow) : Bool :=
  row.hasTargets && !Value.isOverlong (count row)

/-- The rows for which a command is sent: those that are found and announced. -/
def asked (announced : DetectionRow → Bool) (rows : List DetectionRow) (fates : List Fate) :
    List (DetectionRow × Fate) :=
  (rows.zip fates).filter fun (row, fate) => fate.found && announced row

/-- The rows whose command is carried out. -/
def told (announced : DetectionRow → Bool) (rows : List DetectionRow) (fates : List Fate) :
    List DetectionRow :=
  ((asked announced rows fates).filter (·.2.sent)).map (·.1)

/-- The fates of the rows are those of the coming lookups, one for each row, and of the coming
commands, one for each row that is asked for. -/
structure Meets (announced : DetectionRow → Bool) (rows : List DetectionRow)
    (lookups : List Lookup) (link : Link) (fates : List Fate) : Prop where
  lookups : fates.map (·.lookup) = Lookup.next rows.length lookups
  sent : (asked announced rows fates).map (·.2.sent) =
    link.fates (asked announced rows fates).length

variable {announced : DetectionRow → Bool} {rows : List DetectionRow} {row : DetectionRow}
  {fates : List Fate} {fate : Fate} {lookups : List Lookup} {link : Link}

theorem asked_cons (announced : DetectionRow → Bool) (row : DetectionRow)
    (rows : List DetectionRow) (fate : Fate) (fates : List Fate) :
    asked announced (row :: rows) (fate :: fates) =
      if fate.found && announced row then (row, fate) :: asked announced rows fates
      else asked announced rows fates := by
  rw [asked, zip_cons_cons, filter_cons]
  rfl

theorem told_cons (announced : DetectionRow → Bool) (row : DetectionRow)
    (rows : List DetectionRow) (fate : Fate) (fates : List Fate) :
    told announced (row :: rows) (fate :: fates) =
      if (fate.found && announced row && fate.sent) = true then row :: told announced rows fates
      else told announced rows fates := by
  rw [told, asked_cons]
  cases fate.found && announced row with
  | false => rfl
  | true =>
      rw [if_pos rfl, filter_cons, Bool.true_and]
      cases fate.sent <;> rfl

/-- A row for which no command is sent leaves all commands to the others. -/
theorem Meets.cons_unasked (meets : Meets announced rows lookups.tail link fates)
    (lookup : fate.lookup = lookups.headD .answered)
    (unasked : (fate.found && announced row) = false) :
    Meets announced (row :: rows) lookups link (fate :: fates) := by
  have same : asked announced (row :: rows) (fate :: fates) = asked announced rows fates := by
    rw [asked_cons, if_neg (Bool.eq_false_iff.1 unasked)]
  refine ⟨?_, same ▸ meets.sent⟩
  rw [map_cons, lookup, meets.lookups]
  rfl

/-- A row for which a command is sent leaves the later commands to the others. -/
theorem Meets.cons_asked (meets : Meets announced rows lookups.tail link.send.2 fates)
    (lookup : fate.lookup = lookups.headD .answered)
    (asks : (fate.found && announced row) = true) (sent : fate.sent = link.send.1) :
    Meets announced (row :: rows) lookups link (fate :: fates) := by
  have more : asked announced (row :: rows) (fate :: fates) =
      (row, fate) :: asked announced rows fates := by
    rw [asked_cons, if_pos asks]
  constructor
  · rw [map_cons, lookup, meets.lookups]
    rfl
  · rw [more, map_cons, sent, meets.sent, length_cons, Link.fates]

/-! ## One row -/

/-- The notification tells the people of the row of so many matches.  Its identifier is the key of
the batch and the row, if the batch has a source. -/
structure Tells (batch : Engine.Batch) (source : String) (count : Nat) (row : DetectionRow)
    (n : Notification) : Prop where
  content : ∃ rule, row.rule? = .ok (some rule) ∧ n = ofMatches n.id batch ⟨rule, count⟩ row
  key : source ≠ "" → n.id = matchKey source row.id

/-- The text is the payload of the notification. -/
def Writes (n : Notification) (text : String) : Prop :=
  Broker.payload (.text n.id) n.toValue 0 = .ok text

variable {store : Store} {batch : Engine.Batch} {source : String} {project : Option String}

/-- A lookup uses up one of the coming ends of lookups. -/
theorem Notifying.find_eq (state : Notifying) (store : Store) (organization id : String) :
    state.find store organization id =
      (if state.lookups.headD .answered = .answered then store.findRule? organization id else none,
        { state with lookups := state.lookups.tail }) := by
  obtain ⟨ids, queue, lookups⟩ := state
  cases lookups with
  | nil => rfl
  | cons lookup rest => cases lookup <;> rfl

/-- The notification of matches can be written unless there are too many of them. -/
theorem exists_writes_iff (ofText : batch.project = .ofText? project) (id : String)
    (group : RuleMatches) (row : DetectionRow) :
    (∃ text, Writes (ofMatches id batch group row) text) ↔
      Value.isOverlong group.count = false := by
  constructor
  · rintro ⟨text, written⟩
    have json := (Broker.isJson_of_payload written).2
    rw [Notification.reread_toValue] at json
    have number : (Value.int group.count).IsJson := json.get "log_count"
    cases number with
    | int short => exact short
  · intro short
    have own : batch.project.IsJson := ofText ▸ .ofText? project
    have one : Value.isOverlong 1 = false := by decide
    have json : (ofMatches id batch group row).toValue.IsJson :=
      Notification.isJson_toValue .null own short one one (.texts _) (.ofText? _)
    exact Broker.payload_total (.text id) json (by decide)

/-- **How the notification of a row can end.**  It uses up one lookup.  If the row is found and
announced, then one command is sent, and if that is carried out, the queue gains the notification;
otherwise nothing is queued. -/
theorem notify_cases (group : RuleMatches)
    (finds : store.findRule? batch.organization group.rule.id = some row)
    (ofText : batch.project = .ofText? project) (built : row.rule? = .ok (some group.rule))
    (source : String) (link : Link) (state : Notifying) :
    let answered := decide (state.lookups.headD .answered = .answered)
    let announced := row.hasTargets && !Value.isOverlong group.count
    ∃ ids : Ids,
      ((answered && announced) = false ∧ notify store batch source group link state =
          (none, link, ⟨ids, state.queue, state.lookups.tail⟩)) ∨
        (answered && announced) = true ∧
          (link.send.1 = false ∧ notify store batch source group link state =
              (none, link.send.2, ⟨ids, state.queue, state.lookups.tail⟩) ∨
            link.send.1 = true ∧ ∃ n text, Tells batch source group.count row n ∧ Writes n text ∧
              notify store batch source group link state =
                (some n, link.send.2, ⟨ids, state.queue.push text, state.lookups.tail⟩)) := by
  intro answered announced
  unfold notify
  rw [state.find_eq]
  cases found : answered with
  | false =>
      rw [if_neg (of_decide_eq_false found)]
      exact ⟨state.ids, .inl ⟨rfl, rfl⟩⟩
  | true =>
      rw [if_pos (of_decide_eq_true found), finds]
      cases targets : row.hasTargets with
      | false => exact ⟨state.ids, .inl ⟨by simp [announced, targets], by simp [targets]⟩⟩
      | true =>
          rcases named : notificationId state.ids source row.id with ⟨id, ids⟩
          have writable := exists_writes_iff ofText id group row
          simp only [targets, Bool.not_true, Bool.false_eq_true, if_false, named, Queue.enqueueAs]
          refine ⟨ids, ?_⟩
          cases written : Broker.payload (.text id) (ofMatches id batch group row).toValue 0 with
          | error fault =>
              have overlong : Value.isOverlong group.count = true := by
                rw [← Bool.not_eq_false, ← writable]
                rintro ⟨text, writes⟩
                cases written.symm.trans writes
              exact .inl ⟨by simp [announced, overlong], by simp only [Except.toBool]; rfl⟩
          | ok text =>
              have short := writable.1 ⟨text, written⟩
              have key : source ≠ "" → id = matchKey source row.id := by
                intro sourced
                rw [notificationId, if_neg sourced] at named
                exact (congrArg Prod.fst named).symm
              refine .inr ⟨by simp [announced, targets, short], ?_⟩
              rcases sent : link.send with ⟨_ | _, next⟩
              · exact .inl ⟨rfl, by simp [Queue.sendPush, sent, Except.toBool]⟩
              · have tells : Tells batch source group.count row (ofMatches id batch group row) :=
                  ⟨⟨group.rule, built, rfl⟩, key⟩
                refine .inr ⟨rfl, _, text, tells, written, ?_⟩
                simp [Queue.sendPush, sent, Except.toBool]

/-! ## All rows -/

/-- **What the queue gains.**  It gains the notifications of the rows that are told, in their order,
and nothing else. -/
theorem notifyAll_told (rule : DetectionRow → Sigma.Rule) (count : DetectionRow → Nat)
    (finds : ∀ row ∈ rows, store.findRule? batch.organization (rule row).id = some row)
    (built : ∀ row ∈ rows, row.rule? = .ok (some (rule row)))
    (ofText : batch.project = .ofText? project) (source : String) (link : Link)
    (state : Notifying) :
    let after := notifyAll store batch source (rows.map fun row => ⟨rule row, count row⟩) link state
    ∃ fates texts, Meets (announces count) rows state.lookups link fates ∧
      after.2.2.queue = { state.queue with waiting := state.queue.waiting ++ texts } ∧
      Forall₂ (fun row n => Tells batch source (count row) row n)
        (told (announces count) rows fates) after.1 ∧
      Forall₂ Writes after.1 texts := by
  induction rows generalizing link state with
  | nil => exact ⟨[], [], ⟨rfl, rfl⟩, by rw [append_nil]; rfl, .nil, .nil⟩
  | cons row rows ih =>
      obtain ⟨found, finds⟩ := forall_mem_cons.1 finds
      obtain ⟨own, built⟩ := forall_mem_cons.1 built
      obtain ⟨ids, ⟨unasked, passed⟩ | ⟨asks, ⟨lost, passed⟩ |
          ⟨sent, n, text, tells, writes, queued⟩⟩⟩ :=
        notify_cases ⟨rule row, count row⟩ found ofText own source link state
      · obtain ⟨fates, texts, meets, gained, tell, write⟩ :=
          ih finds built link ⟨ids, state.queue, state.lookups.tail⟩
        refine ⟨⟨state.lookups.headD .answered, false⟩ :: fates, texts,
          meets.cons_unasked rfl unasked, ?_⟩
        rw [map_cons, notifyAll, passed, told_cons, Bool.and_false, if_neg Bool.false_ne_true]
        exact ⟨gained, tell, write⟩
      · obtain ⟨fates, texts, meets, gained, tell, write⟩ :=
          ih finds built link.send.2 ⟨ids, state.queue, state.lookups.tail⟩
        refine ⟨⟨state.lookups.headD .answered, false⟩ :: fates, texts,
          meets.cons_asked rfl asks lost.symm, ?_⟩
        rw [map_cons, notifyAll, passed, told_cons, Bool.and_false, if_neg Bool.false_ne_true]
        exact ⟨gained, tell, write⟩
      · obtain ⟨fates, texts, meets, gained, tell, write⟩ :=
          ih finds built link.send.2 ⟨ids, state.queue.push text, state.lookups.tail⟩
        refine ⟨⟨state.lookups.headD .answered, true⟩ :: fates, text :: texts,
          meets.cons_asked rfl asks sent.symm, ?_⟩
        rw [map_cons, notifyAll, queued, told_cons, if_pos (by rw [Bool.and_true]; exact asks)]
        refine ⟨?_, .cons tells tell, .cons writes write⟩
        rw [gained, Queue.push, append_assoc, singleton_append]

/-- The results of a batch that was evaluated are told rule by rule. -/
theorem process_evaluated {scope : Scope} {now : Time.Instant} {state : Processing}
    {results : List (List Engine.Match)} (named : batch.scope = .ok scope)
    (evaluated : (state.engine.evaluateBatch now store.activeRules scope batch.logs).1 =
      .ok results)
    (source : String) (link : Link) :
    let after := notifyAll store batch source (grouped results) link state.notifying
    (process store now batch source link state).1 = .ok after.1 ∧
      (process store now batch source link state).2.2.notifying = after.2.2 := by
  rcases outcome : state.engine.evaluateBatch now store.activeRules scope batch.logs with
    ⟨result, engine⟩
  rw [outcome] at evaluated
  cases evaluated
  simp only [process, named, outcome, and_self]

end Delivery

namespace Service

open Delivery

/-- **A batch tells each match once.**  All rules of the service were imported, and its generated
names have no blanks around them.  For an organization whose rows can be told apart, every batch of
logs that can be read is processed without a fault, whichever lookups do not succeed and whichever
commands are lost.  The batch is evaluated against rows of the store.  Each row that matches a log has
a fate of its own, in the order of the first matches; the queue gains one notification for each row
that is found, announced and sent, in this order, with the number of logs that the row matches; and it
gains nothing else. -/
theorem batch_told {service : Service} (ofImports : service.OfImports)
    (plain : Text.trim service.ids.stem = service.ids.stem) {organization : String}
    (distinguishes : service.store.Distinguishes organization) (project : Option String)
    {logs : List Value} {entries : List LogEntry}
    (read : logs.mapM (LogEntry.ofValue service.now) = .ok entries) (source : String) :
    let batch : Engine.Batch := ⟨organization, .ofText? project, logs⟩
    let count := fun row : DetectionRow => entries.countP (row.matches service.engine.caseSensitive)
    let after := process service.store service.now batch source service.link service.processing
    ∃ rows fates queued texts,
      service.engine.Evaluates service.now service.store ⟨organization, project⟩ rows ∧
      let matched := rowsByMatch service.engine.caseSensitive entries rows
      matched ~ rows.filter (fun row => 0 < count row) ∧
      Meets (announces count) matched service.lookups service.link fates ∧
      after.1 = .ok queued ∧
      after.2.2.notifying.queue = { service.notifications with
        waiting := service.notifications.waiting ++ texts } ∧
      Forall₂ (fun row n => Tells batch source (count row) row n)
        (told (announces count) matched fates) queued ∧
      Forall₂ Writes queued texts := by
  intro batch count after
  have traceable := ofImports.reached.traceable
  have ready := ofImports.stocked.ready plain
  obtain ⟨rows, evaluates⟩ := ofImports.evaluates plain ⟨organization, project⟩
  have distinct : (rows.map (·.id)).Nodup := evaluates.distinct traceable.keyed
  have built : ∀ row ∈ rows, row.rule? = .ok (some row.builtRule) ∧
      row.builtRule.id = row.sigmaId :=
    fun row member => (ready row (evaluates.stored member).1).builtRule
  have apart : ∀ row ∈ rows, ∀ other ∈ rows, row.builtRule.id = other.builtRule.id →
      row = other := by
    intro row member other member' same
    rw [(built row member).2, (built other member').2] at same
    obtain ⟨stored, own⟩ := evaluates.stored member
    obtain ⟨stored', own'⟩ := evaluates.stored member'
    exact distinguishes.eq_of_sigmaId stored own stored' own' same
  have finds : ∀ row ∈ rowsByMatch service.engine.caseSensitive entries rows,
      service.store.findRule? organization row.builtRule.id = some row := by
    intro row matched
    have member := mem_of_mem_rowsByMatch matched
    obtain ⟨stored, own⟩ := evaluates.stored member
    rw [(built row member).2]
    exact distinguishes.finds traceable.keyed stored own
  have scope : batch.scope = .ok ⟨organization, project⟩ := by cases project <;> rfl
  have results := evaluates.evaluateBatch traceable.coherent read
  obtain ⟨processed, notified⟩ : after.1 = .ok _ ∧ after.2.2.notifying = _ :=
    process_evaluated scope results source service.link
  rw [grouped_found distinct apart] at processed notified
  obtain ⟨fates, texts, meets, gained, tell, write⟩ :=
    notifyAll_told DetectionRow.builtRule count finds
      (fun row matched => (built row (mem_of_mem_rowsByMatch matched)).1)
      (show batch.project = .ofText? project from rfl) source service.link
      service.processing.notifying
  exact ⟨rows, fates, _, texts, evaluates, rowsByMatch_perm distinct, meets, processed,
    notified ▸ gained, tell, write⟩

/-! ## A batch with failures -/

/-- A rule that finds a word is imported, with one address to be told. -/
def importWord (word address : String) : Activity :=
  .imports none
    { text := "\x7btitle: T, logsource: \x7b\x7d, detection: \x7bkw: [" ++ word ++
        "], condition: kw\x7d\x7d"
      organization := some "o", project := none, recipients := [address], webhook := none
      wantsAlertRule := false }

/-- A service with nothing stored, that will lose the next command, and whose second lookup will
fail. -/
def troubled : Service :=
  { noImports with link := .outage 0 (some 1), lookups := [.answered, .failed] }

/-- Three rules are imported. -/
def threeImports : List Activity :=
  [importWord "a" "a@x.y", importWord "b" "b@x.y", importWord "c" "c@x.y"]

/-- Three rules were imported. -/
def threeRules : Service := troubled.withoutRules.performAll threeImports

/-- Logs that match the second and the third rule, the first and the second one, and the first
one. -/
def wordLogs : List Value :=
  ["c b", "b a", "a"].map fun words => .map [(.text "message", .text words)]

theorem threeImports_only (raw : Value) (options : Store.RuleOptions) :
    Activity.saves raw options ∉ threeImports := by
  simp [threeImports, importWord]

theorem threeRules_ofImports : threeRules.OfImports :=
  ⟨troubled, threeImports, threeImports_only, rfl⟩

theorem threeRules_plain : Text.trim threeRules.ids.stem = threeRules.ids.stem := by
  have stocked : threeRules.Stocked troubled.ids.stem :=
    (Stocked.start troubled).performAll threeImports threeImports_only
  rw [stocked.named]
  decide +kernel

/-- The rows can be told apart, and two matches of one row are told. -/
theorem threeRules_process :
    (((threeRules.store.detectionRules.filter (·.organization = "o")).map (·.sigmaId)).Nodup ∧
        ∀ row ∈ threeRules.store.detectionRules, ∀ other ∈ threeRules.store.detectionRules,
          row.organization = "o" → other.organization = "o" → row.sigmaId = other.id →
            row.id = other.id) ∧
      (process threeRules.store threeRules.now ⟨"o", .ofText? none, wordLogs⟩ "job" threeRules.link
        threeRules.processing).1.toOption.map (·.map fun n => (n.id, n.logCount)) =
          some [("sigma:job:gen-2", 2)] := by
  decide +kernel

/-- The command for the second rule is lost, and the lookup of the third one fails.  So the two
matches of the first rule are told, and nothing else. -/
theorem batch_told_of_failures :
    (threeRules.OfImports ∧ Text.trim threeRules.ids.stem = threeRules.ids.stem ∧
        threeRules.store.Distinguishes "o" ∧
        ∃ entries, wordLogs.mapM (LogEntry.ofValue threeRules.now) = .ok entries) ∧
      ∃ n text, n.id = "sigma:job:gen-2" ∧ n.logCount = 2 ∧ Writes n text ∧
        (process threeRules.store threeRules.now ⟨"o", .ofText? none, wordLogs⟩ "job"
          threeRules.link threeRules.processing).1 = .ok [n] ∧
        (process threeRules.store threeRules.now ⟨"o", .ofText? none, wordLogs⟩ "job"
          threeRules.link threeRules.processing).2.2.notifying.queue =
            { threeRules.notifications with
              waiting := threeRules.notifications.waiting ++ [text] } := by
  obtain ⟨⟨distinct, apart⟩, shown⟩ := threeRules_process
  have readable : (wordLogs.mapM (LogEntry.ofValue threeRules.now)).toBool = true := by
    decide +kernel
  cases read : wordLogs.mapM (LogEntry.ofValue threeRules.now) with
  | error fault =>
      rw [read] at readable
      cases readable
  | ok entries =>
      obtain ⟨rows, fates, queued, texts, -, -, -, done, gained, -, writes⟩ :=
        batch_told threeRules_ofImports threeRules_plain ⟨distinct, apart⟩ none read "job"
      rw [done] at shown
      obtain ⟨n, rfl, same⟩ := map_eq_singleton_iff.1 (Option.some.inj shown)
      obtain ⟨text, rest, write, none, rfl⟩ := forall₂_cons_left_iff.1 writes
      cases forall₂_nil_left_iff.1 none
      exact ⟨⟨threeRules_ofImports, threeRules_plain, ⟨distinct, apart⟩, entries, rfl⟩, n, text,
        congrArg Prod.fst same, congrArg Prod.snd same, write, done, gained⟩

end Service

end LogAlert
