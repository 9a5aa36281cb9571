/-
# LogAlert.Proofs.Delivery.Identity -- what a notification is about

A notification is made for a stored rule that matched a batch, or for a firing of an alert rule
(`Origin`).  Its identifier is a key of that origin, and the key says which one it was: rows of
rules have identifiers without colons, so that what stands behind the last colon of a key is the row,
whatever the batch is called (`Origin.key_injective`).

The identifier stays with the notification while this travels through a queue: the mapping that was
written is read back as one of a notification with the same identifier
(`Notification.reread_toValue`, `Notification.ofValue_toValue`).  The last section says what a batch
that is processed puts on the queue (`notifyAll_queues`).
-/
import LogAlert.Proofs.Broker.Accounting
import LogAlert.Proofs.Delivery.Targets

set_option autoImplicit false

namespace LogAlert

/-- What a notification was made for. -/
inductive Origin where
  /-- A stored rule matched a batch. -/
  | batch (source row : String)
  /-- An alert rule fired. -/
  | firing (history : String)
deriving DecidableEq, Repr

namespace Origin

/-- The identifier of the notification. -/
def key : Origin → String
  | .batch source row => Delivery.matchKey source row
  | .firing history => Notification.idOfFiring history

/-- The row has an identifier without a colon. -/
def Plain : Origin → Prop
  | .batch _ row => ':' ∉ row.toList
  | .firing _ => True

/-- What stands before and behind the last colon. -/
theorem eq_of_append_colon {a b r s : List Char} (noColon : ':' ∉ r) (noColon' : ':' ∉ s)
    (same : a ++ ':' :: r = b ++ ':' :: s) : a = b ∧ r = s := by
  rcases List.append_eq_append_iff.1 same with ⟨between, rfl, tails⟩ | ⟨between, rfl, tails⟩
  · cases between with
    | nil => exact ⟨(List.append_nil a).symm, (List.cons.inj tails).2⟩
    | cons c rest =>
        have behind := (List.cons.inj tails).2
        exact absurd (behind ▸ List.mem_append_right _ List.mem_cons_self) noColon
  · cases between with
    | nil => exact ⟨List.append_nil b, (List.cons.inj tails).2.symm⟩
    | cons c rest =>
        have behind := (List.cons.inj tails).2
        exact absurd (behind ▸ List.mem_append_right _ List.mem_cons_self) noColon'

/-- **Keys tell origins apart.** -/
theorem key_injective {one other : Origin} (plain : one.Plain) (plain' : other.Plain)
    (same : one.key = other.key) : one = other := by
  have chars := congrArg String.toList same
  cases one with
  | batch source row =>
      cases other with
      | batch source' row' =>
          simp only [key, Delivery.matchKey, String.toList_append, List.append_assoc] at chars
          have behind := List.append_cancel_left chars
          obtain ⟨sources, rows⟩ := eq_of_append_colon plain plain' behind
          rw [String.toList_inj.1 sources, String.toList_inj.1 rows]
      | firing history =>
          simp [key, Delivery.matchKey, Notification.idOfFiring] at chars
  | firing history =>
      cases other with
      | batch source' row' => simp [key, Delivery.matchKey, Notification.idOfFiring] at chars
      | firing history' =>
          simp only [key, Notification.idOfFiring, String.toList_append] at chars
          rw [String.toList_inj.1 (List.append_cancel_left chars)]

theorem key_ne_empty (origin : Origin) : origin.key ≠ "" := by
  intro none
  have chars := congrArg String.toList none
  cases origin <;> simp [key, Delivery.matchKey, Notification.idOfFiring] at chars

end Origin

/-! ## Through a queue -/

namespace Notification

/-- The notification as it comes back from JSON. -/
def reread (n : Notification) : Notification :=
  { n with
    history := Json.reread n.history, project := Json.reread n.project
    recipients := Json.rereadItems n.recipients, webhook := Json.reread n.webhook }

theorem reread_toValue (n : Notification) : Json.reread n.toValue = n.reread.toValue := by
  simp [toValue, reread, Json.reread, Json.rereadEntries, Json.keyName, Value.insertIn, Value.same,
    Value.sameScalar]

/-- A notification of JSON data, with numbers that are not too long, has a form in JSON. -/
theorem isJson_toValue {n : Notification} (history : n.history.IsJson) (project : n.project.IsJson)
    (count : Value.isOverlong n.logCount = false) (threshold : Value.isOverlong n.threshold = false)
    (window : Value.isOverlong n.window = false) (recipients : (Value.list n.recipients).IsJson)
    (webhook : n.webhook.IsJson) : n.toValue.IsJson := by
  have json : (Value.map (Value.named
      [("job_id", .text n.id), ("history_id", n.history), ("rule_id", .text n.ruleId),
        ("rule_name", .text n.ruleName), ("organization_id", .text n.organization),
        ("project_id", n.project), ("log_count", .int n.logCount), ("threshold", .int n.threshold),
        ("time_window", .int n.window), ("email_recipients", .list n.recipients),
        ("webhook_url", n.webhook)])).IsJson := by
    refine .map (by simp) ?_
    simp only [List.forall_mem_cons]
    exact ⟨.text _, history, .text _, .text _, .text _, project, .int count, .int threshold,
      .int window, recipients, webhook, nofun⟩
  exact json

/-- A notification with an identifier is read as it was written. -/
theorem ofValue_toValue {n : Notification} (named : n.id ≠ "") (ids : Ids) :
    ofValue ids n.toValue = (.ok n, ids) := by
  have own : n.toValue.getOf "job_id" = .ok (.text n.id) := rfl
  have truthy : (Value.text n.id).truthy = true := bne_iff_ne.2 named
  have organization : (Value.text n.organization).orElse (.text "") = .text n.organization := by
    unfold Value.orElse
    split
    · rfl
    · rename_i absent
      rw [not_not.1 (mt bne_iff_ne.2 absent)]
  have recipients : (Value.list n.recipients).orElse (.list []) = .list n.recipients := by
    cases recipients : n.recipients <;> rfl
  have entries : ofEntries (.text n.id) (n.toValue.entries?.getD []) = .ok n := by
    have organization' : Value.get (n.toValue.entries?.getD []) "organization_id" =
        .text n.organization := rfl
    have recipients' : Value.get (n.toValue.entries?.getD []) "email_recipients" =
        .list n.recipients := rfl
    rw [ofEntries, organization', organization, recipients', recipients]
    rfl
  simp only [ofValue, own, truthy, if_true, entries]

end Notification

/-! ## What a batch queues -/

/-- Over a sound connection a job is added, unless it cannot be written. -/
theorem Queue.enqueueAs_cases (queue : Queue) (id data : Value) (attempts : Int) :
    (∃ text, Broker.payload id data attempts = .ok text ∧
        queue.enqueueAs .sound id data attempts = (.ok (), queue.push text, .sound)) ∨
      ∃ error, queue.enqueueAs .sound id data attempts = (.error error, queue, .sound) := by
  unfold enqueueAs
  cases written : Broker.payload id data attempts with
  | error fault => exact .inr ⟨_, rfl⟩
  | ok text => exact .inl ⟨text, rfl, rfl⟩

/-- The notification is for a row of the store, and is identified by the batch and this row. -/
structure Notification.Identifies (n : Notification) (store : Store) (source : String) : Prop where
  row : ∃ row ∈ store.detectionRules, row.id = n.ruleId
  key : n.id = (Origin.batch source n.ruleId).key

namespace Delivery

variable {store : Store} {batch : Engine.Batch} {source : String} {link : Link}
variable {state after : Notifying}

theorem Notifying.find_queue (state : Notifying) (store : Store) (organization id : String) :
    (state.find store organization id).2.queue = state.queue := by
  unfold find
  split <;> rfl

theorem notify_queues {group : RuleMatches} {result : Option Notification} (named : source ≠ "")
    (done : notify store batch source group .sound state = (result, link, after)) :
    link = .sound ∧ ((result = none ∧ after.queue = state.queue) ∨
      ∃ n text, result = some n ∧ n.Identifies store source ∧
        Broker.payload (.text n.id) n.toValue 0 = .ok text ∧
          after.queue = state.queue.push text) := by
  obtain ⟨-, finds⟩ := state.find_spec store batch.organization group.rule.id
  have same := state.find_queue store batch.organization group.rule.id
  unfold notify at done
  rcases search : state.find store batch.organization group.rule.id with ⟨_ | row, later⟩
  · rw [search] at done same
    cases done
    exact ⟨rfl, .inl ⟨rfl, same⟩⟩
  rw [search] at done same finds
  replace same : later.queue = state.queue := same
  cases targets : row.hasTargets with
  | false =>
      simp only [targets, Bool.not_false, if_true] at done
      cases done
      exact ⟨rfl, .inl ⟨rfl, same⟩⟩
  | true =>
      have stored := Store.findRule?_mem (finds row rfl)
      simp only [targets, Bool.not_true, Bool.false_eq_true, if_false, notificationId,
        if_neg named] at done
      obtain ⟨text, written, queued⟩ | ⟨error, failed⟩ :=
        later.queue.enqueueAs_cases (.text (matchKey source row.id))
          (ofMatches (matchKey source row.id) batch group row).toValue 0
      · rw [queued] at done
        cases done
        exact ⟨rfl, .inr ⟨_, text, rfl, ⟨⟨row, stored, rfl⟩, rfl⟩, written, by rw [same]⟩⟩
      · rw [failed] at done
        cases done
        exact ⟨rfl, .inl ⟨rfl, same⟩⟩

/-- **What a batch puts on the queue.**  All payloads that were not there before are those of the
notifications that are reported as queued. -/
theorem notifyAll_queues {groups : List RuleMatches} {queued : List Notification}
    (named : source ≠ "")
    (done : notifyAll store batch source groups .sound state = (queued, link, after)) :
    (∀ n ∈ queued, n.Identifies store source) ∧
      ∀ text ∈ after.queue.contents, text ∈ state.queue.contents ∨
        ∃ n ∈ queued, Broker.payload (.text n.id) n.toValue 0 = .ok text := by
  induction groups generalizing state queued with
  | nil =>
      cases done
      exact ⟨nofun, fun text member => .inl member⟩
  | cons group rest ih =>
      unfold notifyAll at done
      rcases first : notify store batch source group .sound state with ⟨result, link', middle⟩
      rcases others : notifyAll store batch source rest link' middle with ⟨behind, last, final⟩
      simp only [first, others] at done
      cases done
      obtain ⟨rfl, one⟩ := notify_queues named first
      obtain ⟨identify, from'⟩ := ih others
      obtain ⟨rfl, same⟩ | ⟨n, text, rfl, identifies, written, pushed⟩ := one
      · exact ⟨identify, same ▸ from'⟩
      · refine ⟨?_, fun other member => ?_⟩
        · rintro m (_ | ⟨_, inRest⟩)
          · exact identifies
          · exact identify m inRest
        · rcases from' other member with earlier | ⟨m, inRest, own⟩
          · rw [pushed] at earlier
            rcases List.mem_cons.1 ((Queue.contents_push state.queue text).mem_iff.1 earlier)
              with rfl | old
            · exact .inr ⟨n, List.mem_cons_self, written⟩
            · exact .inl old
          · exact .inr ⟨m, List.mem_cons_of_mem _ inRest, own⟩

end Delivery

end LogAlert
