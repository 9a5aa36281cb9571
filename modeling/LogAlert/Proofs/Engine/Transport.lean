/-
# LogAlert.Proofs.Engine.Transport -- batches that go through a queue

A batch of log entries is sent to a queue as JSON: each entry as a mapping, all of them in one job.
Whoever takes the job from the queue reads the batch and the entries again.  Jobs of JSON data arrive
as they were sent (`Queue.enqueue_json`, `Queue.reserve_json`), batches are read back from their data
(`Batch.ofValue_toValue`), and entries that can be read are evaluated as entries
(`evaluateBatch_of_read`).

Main statement: `evaluateBatch_sent`.  Entries that were read from JSON are found to match the same
rules after their way through a queue, whatever rules and clocks there are.
-/
import LogAlert.Broker.Queue
import LogAlert.Engine.Batch
import LogAlert.Proofs.Broker.Accounting
import LogAlert.Proofs.Engine.Independence
import LogAlert.Proofs.Log.Sent

set_option autoImplicit false

namespace LogAlert

/-! ## Jobs of JSON data -/

theorem Link.send_carried {link : Link} (carried : link.send.1 = true) :
    ∃ after, link.send = (true, after) :=
  ⟨_, Prod.ext carried rfl⟩

namespace Queue

variable {queue : Queue} {link : Link} {id data : Value} {attempts : Int} {payload : String}

/-- A job of JSON data without an identifier of its own is given one and added to the queue. -/
theorem enqueue_json (queue : Queue) (carried : link.send.1 = true) (ids : Ids) (json : data.IsJson)
    (anonymous : data.getOf "job_id" = .ok .null) :
    ∃ id payload, (queue.enqueue link ids .null data 0).1 = .ok id ∧
      (queue.enqueue link ids .null data 0).2.1 = queue.push payload ∧
      id.IsJson ∧ Broker.payload id data 0 = .ok payload := by
  obtain ⟨payload, printed⟩ :=
    Broker.payload_total (.text ids.fresh.1) json (show Value.isOverlong 0 = false by decide)
  have named : jobId ids .null data = (.ok (.text ids.fresh.1), ids.fresh.2) := by
    simp only [jobId, anonymous]
    rfl
  obtain ⟨after, sent⟩ := Link.send_carried carried
  have added : queue.enqueue link ids .null data 0 =
      (.ok (.text ids.fresh.1), queue.push payload, after, ids.fresh.2) :=
    enqueue_carried named printed sent
  exact ⟨.text ids.fresh.1, payload, by rw [added], by rw [added], .text _, printed⟩

/-- Whoever takes a job of JSON data gets these data. -/
theorem reserve_json (own : id.IsJson) (json : data.IsJson)
    (written : Broker.payload id data attempts = .ok payload)
    (first : queue.waiting.head? = some payload) (carried : link.send.1 = true) :
    (queue.reserve link).1 = .ok (.job ⟨id, data, attempts, payload⟩) := by
  obtain ⟨after, sent⟩ := Link.send_carried carried
  obtain ⟨rest, waiting⟩ := List.head?_eq_some_iff.1 first
  have read := Broker.ofPayload_payload written
  rw [own.reread_eq, json.reread_eq] at read
  rw [reserve_carried waiting read sent]

end Queue

namespace Engine

/-! ## Batches -/

namespace Batch

theorem ofValue_toValue (batch : Batch) : ofValue batch.toValue = .ok batch := by
  obtain ⟨organization, project, logs⟩ := batch
  cases logs <;> rfl

theorem scope_ofEntries (scope : Scope) (entries : List LogEntry) :
    (ofEntries scope entries).scope = .ok scope := by
  obtain ⟨organization, project⟩ := scope
  cases project <;> rfl

theorem isJson_ofEntries (scope : Scope) {entries : List LogEntry}
    (sendable : ∀ entry ∈ entries, entry.Sendable) : (ofEntries scope entries).toValue.IsJson := by
  show (Value.map (Value.named [("organization_id", .text scope.organization),
    ("project_id", .ofText? scope.project), ("logs", .list (entries.map LogEntry.toValue))])).IsJson
  have logs : (Value.list (entries.map LogEntry.toValue)).IsJson := by
    refine .list fun v member => ?_
    obtain ⟨entry, inEntries, rfl⟩ := List.mem_map.1 member
    exact (sendable entry inEntries).isJson_toValue
  refine .map (by simp) ?_
  simp only [List.forall_mem_cons]
  exact ⟨.text _, .ofText? _, logs, nofun⟩

end Batch

/-! ## Evaluating -/

/-- Values that can be read are evaluated as the entries that they are read as. -/
theorem evaluateAll_of_read {now : Time.Instant} {batch : List Value} {entries : List LogEntry}
    (read : batch.mapM (LogEntry.ofValue now) = .ok entries) (rules : List CompiledRule)
    (engine : Engine) :
    evaluateAll now rules batch engine =
      (.ok (evaluateEntries now rules entries engine).1,
        (evaluateEntries now rules entries engine).2) := by
  induction mapM_eq_ok.1 read generalizing engine with
  | nil => rfl
  | cons one others ih =>
      have rest := ih (mapM_eq_ok.2 others)
      simp only [evaluateAll, one, rest, evaluateEntries]
      rfl

/-- A batch of values that can be read is evaluated as the batch of these entries. -/
theorem evaluateBatch_of_read {now : Time.Instant} {batch : List Value} {entries : List LogEntry}
    (read : batch.mapM (LogEntry.ofValue now) = .ok entries) (engine : Engine)
    (source : Scope → Except Fault (List Sigma.Rule)) (scope : Scope) :
    engine.evaluateBatch now source scope batch =
      engine.evaluateEntryBatch now source scope entries := by
  unfold evaluateBatch evaluateEntryBatch
  split
  · rfl
  · exact evaluateAll_of_read read _ _

/-- **Sending entries through a queue does not change what is found in them.**  Each entry that was
read from JSON is read from the mapping it is sent as, at any time, as the very same entry, and its
time has the same text.  A batch of such entries is accepted by every queue whose command is carried
out.  Whoever takes the job, once it is the next one, from a queue of any kind, reads from it a batch
for the same scope, and its evaluation is that of the original entries: the same results or the same
failure, and the same state of the engine, for every engine, clock and source of rules. -/
theorem evaluateBatch_sent {entries : List LogEntry}
    (received : ∀ entry ∈ entries, entry.Received) (scope : Scope) (queue : Queue) {link : Link}
    (carried : link.send.1 = true) (ids : Ids) :
    (∀ entry ∈ entries, ∀ now, ∃ again, LogEntry.ofValue now entry.toValue = .ok again ∧
      again = entry ∧ again.time.text = entry.time.text) ∧
    ∃ id payload,
      (queue.enqueue link ids .null (Batch.ofEntries scope entries).toValue 0).1 = .ok id ∧
      (queue.enqueue link ids .null (Batch.ofEntries scope entries).toValue 0).2.1 =
        queue.push payload ∧
      ∀ (later : Queue) (link : Link), later.waiting.head? = some payload → link.send.1 = true →
        ∃ job batch, (later.reserve link).1 = .ok (.job job) ∧ job.id = id ∧
          Batch.ofValue job.data = .ok batch ∧ batch.scope = .ok scope ∧
          ∀ (engine : Engine) (now : Time.Instant)
            (source : Scope → Except Fault (List Sigma.Rule)),
            engine.evaluateBatch now source scope batch.logs =
              engine.evaluateEntryBatch now source scope entries := by
  have sendable : ∀ entry ∈ entries, entry.Sendable := fun entry member =>
    (received entry member).sendable
  have json := Batch.isJson_ofEntries scope sendable
  obtain ⟨id, payload, accepted, pushed, own, written⟩ :=
    queue.enqueue_json carried ids json rfl
  refine ⟨fun entry member now => ⟨entry, (sendable entry member).ofValue_toValue now, rfl, rfl⟩,
    id, payload, accepted, pushed, fun later link first carried => ?_⟩
  refine ⟨_, _, Queue.reserve_json own json written first carried, rfl, Batch.ofValue_toValue _,
    Batch.scope_ofEntries scope entries, fun engine now source => ?_⟩
  have read : (entries.map LogEntry.toValue).mapM (LogEntry.ofValue now) = .ok entries :=
    mapM_map_eq_ok fun entry member => (sendable entry member).ofValue_toValue now
  exact evaluateBatch_of_read read engine source scope

/-- A log of a clock that is two hours ahead, with metadata and a key of its own. -/
def aheadLog : Value :=
  .map (Value.named [("time", .text "2025-01-15T10:00:00.5+02:00"), ("product", .text "linux"),
    ("message", .text "psexec"),
    ("metadata", .map (Value.named [("pid", .int 7), ("tags", .list [.null, .bool true])]))])

theorem isJson_aheadLog : aheadLog.IsJson := by
  have metadata : (Value.map (Value.named
      [("pid", .int 7), ("tags", .list [.null, .bool true])])).IsJson := by
    refine .map (by simp) ?_
    simp only [List.forall_mem_cons]
    refine ⟨.int (by decide), .list ?_, nofun⟩
    simp only [List.forall_mem_cons]
    exact ⟨.null, .bool true, nofun⟩
  refine .map (by simp) ?_
  simp only [List.forall_mem_cons]
  exact ⟨.text _, .text _, .text _, metadata, nofun⟩

theorem evaluateBatch_sent_ahead :
    ∃ entry, LogEntry.ofValue ⟨0⟩ aheadLog = .ok entry ∧
      entry.time.text = "2025-01-15T10:00:00.500000+02:00" ∧
      LogEntry.ofValue ⟨1⟩ entry.toValue = .ok entry ∧
      ∃ payload job batch,
        (((Queue.empty "detections" 3 true).push payload).reserve .sound).1 = .ok (.job job) ∧
        Batch.ofValue job.data = .ok batch ∧
        ((fresh false 0).evaluateBatch ⟨1⟩ (listing [ruleOn "found" "sel" (.keywords ["psexec"])])
          ⟨"o", some "p"⟩ batch.logs).1.toOption.map (·.map (·.map (·.rule.rule.id))) =
            some [["found"]] := by
  have shown : (LogEntry.ofValue ⟨0⟩ aheadLog).toOption.map (fun entry => (entry.time.text,
      ((fresh false 0).evaluateEntryBatch ⟨1⟩
        (listing [ruleOn "found" "sel" (.keywords ["psexec"])]) ⟨"o", some "p"⟩ [entry]).1.toOption.map
          (·.map (·.map (·.rule.rule.id))))) =
      some ("2025-01-15T10:00:00.500000+02:00", some [["found"]]) := by decide +kernel
  cases read : LogEntry.ofValue ⟨0⟩ aheadLog with
  | error fault =>
      rw [read] at shown
      cases shown
  | ok entry =>
      rw [read] at shown
      obtain ⟨time, found⟩ := Prod.mk.inj (Option.some.inj shown)
      have received : ∀ other ∈ [entry], other.Received := by
        intro other member
        rw [List.mem_singleton.1 member]
        exact ⟨⟨0⟩, aheadLog, by decide, isJson_aheadLog, read⟩
      have carried : Link.sound.send.1 = true := rfl
      obtain ⟨again, id, payload, -, -, taken⟩ := evaluateBatch_sent received ⟨"o", some "p"⟩
        (Queue.empty "detections" 3 true) carried ⟨"job", 0⟩
      obtain ⟨job, batch, reserved, -, decoded, -, same⟩ :=
        taken ((Queue.empty "detections" 3 true).push payload) .sound rfl rfl
      obtain ⟨other, reread, rfl, -⟩ := again entry (List.mem_singleton.2 rfl) ⟨1⟩
      exact ⟨other, rfl, time, reread, payload, job, batch, reserved, decoded,
        (same (fresh false 0) ⟨1⟩ _) ▸ found⟩

end Engine

end LogAlert
