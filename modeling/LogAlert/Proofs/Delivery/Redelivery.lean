/-
# LogAlert.Proofs.Delivery.Redelivery -- batches that are handled more than once

Queues deliver at least once.  `Traffic` is what passes through the queue of batches, the queue of
notifications and the ledger of the workers that deliver these; beside it stands a record of what
each payload of a notification was made for, and of each attempt to deliver one.  In a `Run` batches
are submitted under identifiers, alert rules fire, and whoever has taken a job handles, finishes or
retries it at any time and as often as may be; stale jobs are put back at any time.  The rules that
are stored, the engine, the names that are handed out, the workers, the history, and what becomes of
mail and webhooks are any others at each step.  No command is lost, the clock of the deliveries goes
on, and these come one after the other.

The invariant is `Traffic.Sound`.  The main statement, `batch_notifies_once`, says for which batch
and which rule a notification was, when it is skipped, and that there are not two deliveries of it
within the window of the ledger.
-/
import LogAlert.Alert.Scheduler
import LogAlert.Proofs.Broker.Taken
import LogAlert.Proofs.Delivery.Identity
import LogAlert.Proofs.Delivery.Once

set_option autoImplicit false

namespace LogAlert

namespace Delivery

/-- The notifications that handling a batch puts on the queue. -/
def queuedBy (store : Store) (now : Time.Instant) (job : Broker.Job) (state : Processing) :
    List Notification :=
  match Engine.Batch.ofValue job.data with
  | .error _ => []
  | .ok batch => (process store now batch (sourceOf job) .sound state).1.toOption.getD []

end Delivery

/-- The call that handling a notification makes, if this can be read. -/
def Worker.callFor (worker : Worker) (times : Worker.Times) (job : Broker.Job)
    (state : Worker.State) : Option Worker.Call :=
  match Notification.ofValue state.ids job.data with
  | (.error _, _) => none
  | (.ok n, ids) => some (worker.call times n { state with ids })

namespace Traffic

/-- What the payload of a notification was made for. -/
structure Entry where
  payload : String
  origin : Origin

/-- An attempt to deliver the notification with this payload. -/
structure Attempt where
  payload : String
  call : Worker.Call

/-- The entries of notifications that are put on the queue. -/
def entriesOf (made : List (Notification × Origin)) : List Entry :=
  made.flatMap fun (n, origin) =>
    (Broker.payload (.text n.id) n.toValue 0).toOption.toList.map (⟨·, origin⟩)

end Traffic

/-- Two queues and a ledger, with a record of the notifications. -/
structure Traffic where
  batches : Line
  news : Line
  ledger : Ledger
  book : List Traffic.Entry
  attempts : List Traffic.Attempt

namespace Traffic

/-- What can happen. -/
inductive Move where
  /-- A batch is submitted under an identifier. -/
  | submit (ids : Ids) (id : String) (data : Value) (attempts : Int)
  | takeBatch
  /-- Somebody who has taken a batch handles it. -/
  | handleBatch (job : Broker.Job) (store : Store) (shown : Time.Instant) (engine : Engine)
      (ids : Ids) (lookups : List Delivery.Lookup)
  | ackBatch (job : Broker.Job)
  | retryBatch (job : Broker.Job)
  | requeueBatches
  /-- Alert rules have fired. -/
  | announce (firings : List Alert.Firing)
  | takeNews
  /-- Somebody who has taken a notification delivers it. -/
  | deliver (job : Broker.Job) (worker : Worker) (times : Worker.Times) (ids : Ids) (store : Store)
      (outside : Delivery.Outside)
  | ackNews (job : Broker.Job)
  | retryNews (job : Broker.Job)
  | requeueNews

/-- The payloads of a job that is retried are for what it was made for. -/
def again (book : List Entry) (job : Broker.Job) : List Entry :=
  match Broker.payload job.id job.data (job.attempts + 1) with
  | .error _ => []
  | .ok text => (book.filter (·.payload = job.payload)).map ({ · with payload := text })

/-- What comes of it. -/
def after (t : Traffic) : Move → Traffic
  | .submit ids id data attempts =>
    { t with batches.queue := (t.batches.queue.enqueue .sound ids (.text id) data attempts).2.1 }
  | .takeBatch => { t with batches := t.batches.take }
  | .handleBatch job store shown engine ids lookups =>
    let state : Delivery.Processing := ⟨engine, ids, t.news.queue, lookups⟩
    { t with
      news.queue := (Delivery.handle store shown job .sound state).2.2.notifying.queue
      book := t.book ++ entriesOf ((Delivery.queuedBy store shown job state).map fun n =>
        (n, .batch (Delivery.sourceOf job) n.ruleId)) }
  | .ackBatch job => { t with batches := t.batches.ack job }
  | .retryBatch job => { t with batches := t.batches.retry job }
  | .requeueBatches => { t with batches := t.batches.requeueStale }
  | .announce firings =>
    { t with
      news.queue := (Alert.dispatch firings t.news.queue .sound).1
      book := t.book ++ entriesOf (firings.map fun firing =>
        (.ofFiring firing, .firing firing.history)) }
  | .takeNews => { t with news := t.news.take }
  | .deliver job worker times ids store outside =>
    let state : Worker.State := ⟨ids, store, t.ledger, outside⟩
    { t with
      ledger := (worker.handle times job .sound state).2.2.ledger
      attempts := t.attempts ++ (worker.callFor times job state).toList.map (⟨job.payload, ·⟩) }
  | .ackNews job => { t with news := t.news.ack job }
  | .retryNews job => { t with news := t.news.retry job, book := t.book ++ again t.book job }
  | .requeueNews => { t with news := t.news.requeueStale }

/-- It can happen at this time. -/
def Allows (t : Traffic) (now : Time.Instant) : Move → Prop
  | .submit _ id _ _ => id ≠ ""
  | .handleBatch job store _ _ _ _ =>
    job ∈ t.batches.taken ∧ ∀ row ∈ store.detectionRules, ':' ∉ row.id.toList
  | .ackBatch job | .retryBatch job => job ∈ t.batches.taken
  | .deliver job worker times _ _ _ =>
    job ∈ t.news.taken ∧ worker.usesLedger = true ∧ times.Follow now
  | .ackNews job | .retryNews job => job ∈ t.news.taken
  | .takeBatch | .requeueBatches | .announce _ | .takeNews | .requeueNews => True

/-- When it is over. -/
def Move.over (now : Time.Instant) : Move → Time.Instant
  | .deliver _ _ times _ _ _ => times.recorded
  | _ => now

/-- How traffic comes about, and until when. -/
inductive Run (window : Int) (isShared : Bool) : Time.Instant → Traffic → Prop where
  | start (now : Time.Instant) {batches news : Queue} (noBatches : batches.contents = [])
      (noNews : news.contents = []) :
      Run window isShared now ⟨⟨batches, []⟩, ⟨news, []⟩, .empty window isShared, [], []⟩
  | step {now : Time.Instant} {t : Traffic} (before : Run window isShared now t) (move : Move)
      (allowed : t.Allows now move) : Run window isShared (move.over now) (t.after move)

/-- The attempt was for this origin. -/
def IsFor (t : Traffic) (attempt : Attempt) (origin : Origin) : Prop :=
  ⟨attempt.payload, origin⟩ ∈ t.book

/-! ## What a run preserves -/

/-- The payload is that of a batch with an identifier. -/
def Sourced (text : String) : Prop :=
  ∃ id data attempts, id ≠ "" ∧ Broker.payload (.text id) data attempts = .ok text

/-- The payload is that of a notification with the key of its origin. -/
structure Entry.Proper (entry : Entry) : Prop where
  plain : entry.origin.Plain
  written : ∃ (n : Notification) (id : Value) (attempts : Int), n.id = entry.origin.key ∧
    Broker.payload id n.toValue attempts = .ok entry.payload

/-- What holds at any time: batches have identifiers, each notification is in the book, the book is
right about them, and the ledger is about the attempts. -/
structure Sound (window : Int) (now : Time.Instant) (t : Traffic) : Prop where
  batches : t.batches.All Sourced
  news : t.news.All fun text => ∃ entry ∈ t.book, entry.payload = text
  proper : ∀ entry ∈ t.book, entry.Proper
  attempted : ∀ attempt ∈ t.attempts, ∃ entry ∈ t.book, entry.payload = attempt.payload ∧
    attempt.call.notification.id = entry.origin.key
  recalls : Worker.Recalls t.ledger window now (t.attempts.map (·.call))

variable {window : Int} {isShared : Bool} {now : Time.Instant} {t : Traffic} {job : Broker.Job}

theorem Sourced.written {text : String} (sourced : Sourced text) :
    ∃ id data attempts, Broker.payload id data attempts = .ok text := by
  obtain ⟨id, data, attempts, -, written⟩ := sourced
  exact ⟨.text id, data, attempts, written⟩

/-- The source that a batch has been given. -/
theorem Sourced.sourceOf_eq (sourced : Sourced job.payload)
    (read : Broker.Job.ofPayload job.payload = .ok (some job)) :
    ∃ id, id ≠ "" ∧ job.id = .text id ∧ Delivery.sourceOf job = id := by
  obtain ⟨id, data, attempts, named, written⟩ := sourced
  rw [Broker.ofPayload_payload written] at read
  have own : job.id = .text id := congrArg Broker.Job.id (Option.some.inj (Except.ok.inj read)).symm
  have truthy : (Value.text id).truthy = true := bne_iff_ne.2 named
  refine ⟨id, named, own, ?_⟩
  rw [Delivery.sourceOf, own, if_pos truthy]
  rfl

namespace Entry.Proper

variable {entry other : Entry}

theorem payload_written (proper : entry.Proper) :
    ∃ id data attempts, Broker.payload id data attempts = .ok entry.payload := by
  obtain ⟨-, n, id, attempts, -, written⟩ := proper
  exact ⟨id, n.toValue, attempts, written⟩

/-- The notification that a payload is read as. -/
theorem data (proper : entry.Proper)
    (read : Broker.Job.ofPayload entry.payload = .ok (some job)) :
    ∃ n : Notification, n.id = entry.origin.key ∧ job.data = n.toValue := by
  obtain ⟨-, n, id, attempts, own, written⟩ := proper
  rw [Broker.ofPayload_payload written, Notification.reread_toValue] at read
  exact ⟨n.reread, own, congrArg Broker.Job.data (Option.some.inj (Except.ok.inj read)).symm⟩

/-- A payload is for one origin. -/
theorem origin_eq (proper : entry.Proper) (proper' : other.Proper)
    (same : entry.payload = other.payload) : entry.origin = other.origin := by
  obtain ⟨id, data, attempts, written⟩ := proper.payload_written
  have read := Broker.ofPayload_payload written
  obtain ⟨n, own, isData⟩ := proper.data read
  obtain ⟨m, own', isData'⟩ := proper'.data (same ▸ read)
  have ids : n.id = m.id := by
    have entries := isData.symm.trans isData'
    simp only [Notification.toValue, Value.map.injEq, List.cons.injEq, Prod.mk.injEq,
      Value.text.injEq] at entries
    exact entries.1.2
  exact Origin.key_injective proper.plain proper'.plain (own.symm.trans (ids.trans own'))

end Entry.Proper

theorem mem_entriesOf {made : List (Notification × Origin)} {entry : Entry} :
    entry ∈ entriesOf made ↔ ∃ n, (n, entry.origin) ∈ made ∧
      Broker.payload (.text n.id) n.toValue 0 = .ok entry.payload := by
  have toOption {text : String} (result : Except Fault String) :
      result.toOption = some text ↔ result = .ok text := by
    cases result <;> simp [Except.toOption]
  obtain ⟨text, origin⟩ := entry
  simp only [entriesOf, List.mem_flatMap, List.mem_map, Option.mem_toList, toOption, Prod.exists,
    Entry.mk.injEq]
  constructor
  · rintro ⟨n, _, made, _, written, rfl, rfl⟩
    exact ⟨n, made, written⟩
  · rintro ⟨n, made, written⟩
    exact ⟨n, origin, made, text, written, rfl, rfl⟩

theorem mem_again {book : List Entry} {entry : Entry} :
    entry ∈ again book job ↔ (∃ old ∈ book, old.payload = job.payload ∧ old.origin = entry.origin) ∧
      Broker.payload job.id job.data (job.attempts + 1) = .ok entry.payload := by
  obtain ⟨text, origin⟩ := entry
  unfold again
  cases written : Broker.payload job.id job.data (job.attempts + 1) with
  | error fault => simp
  | ok again =>
      simp only [List.mem_map, List.mem_filter, decide_eq_true_eq, Entry.mk.injEq, Except.ok.injEq]
      constructor
      · rintro ⟨old, ⟨member, same⟩, rfl, rfl⟩
        exact ⟨⟨old, member, same, rfl⟩, rfl⟩
      · rintro ⟨⟨old, member, same, rfl⟩, rfl⟩
        exact ⟨old, ⟨member, same⟩, rfl, rfl⟩

/-! ## What the steps do to the queue of notifications -/

/-- All that handling a batch puts on the queue are the notifications that it reports. -/
theorem queuedBy_spec (named : Delivery.sourceOf job ≠ "") (store : Store) (shown : Time.Instant)
    (state : Delivery.Processing) :
    (∀ n ∈ Delivery.queuedBy store shown job state, n.Identifies store (Delivery.sourceOf job)) ∧
      ∀ text ∈ (Delivery.handle store shown job .sound state).2.2.notifying.queue.contents,
        text ∈ state.notifying.queue.contents ∨ ∃ n ∈ Delivery.queuedBy store shown job state,
          Broker.payload (.text n.id) n.toValue 0 = .ok text := by
  unfold Delivery.queuedBy Delivery.handle
  cases Engine.Batch.ofValue job.data with
  | error fault => exact ⟨nofun, fun text member => .inl member⟩
  | ok batch =>
      dsimp only
      unfold Delivery.process
      cases batch.scope with
      | error fault => exact ⟨nofun, fun text member => .inl member⟩
      | ok scope =>
          dsimp only
          rcases state.engine.evaluateBatch shown store.activeRules scope batch.logs with
            ⟨fault | results, engine⟩
          · exact ⟨nofun, fun text member => .inl member⟩
          · rcases done : Delivery.notifyAll store batch (Delivery.sourceOf job)
                (Delivery.grouped results) .sound state.notifying with ⟨queued, link, notifying⟩
            simp only [done]
            exact Delivery.notifyAll_queues named done

theorem dispatch_contents (firings : List Alert.Firing) (queue : Queue) :
    ∀ text ∈ (Alert.dispatch firings queue .sound).1.contents, text ∈ queue.contents ∨
      ∃ firing ∈ firings, Broker.payload (.text (Notification.ofFiring firing).id)
        (Notification.ofFiring firing).toValue 0 = .ok text := by
  induction firings generalizing queue with
  | nil => exact fun text member => .inl member
  | cons firing rest ih =>
      intro text member
      unfold Alert.dispatch at member
      obtain ⟨payload, written, queued⟩ | ⟨error, failed⟩ :=
        queue.enqueueAs_cases (.text (Notification.ofFiring firing).id)
          (Notification.ofFiring firing).toValue 0
      · simp only [queued] at member
        rcases ih _ text member with earlier | ⟨other, inRest, own⟩
        · rcases List.mem_cons.1 ((Queue.contents_push queue payload).mem_iff.1 earlier)
            with rfl | old
          · exact .inr ⟨firing, List.mem_cons_self, written⟩
          · exact .inl old
        · exact .inr ⟨other, List.mem_cons_of_mem _ inRest, own⟩
      · simp only [failed] at member
        rcases ih _ text member with old | ⟨other, inRest, own⟩
        · exact .inl old
        · exact .inr ⟨other, List.mem_cons_of_mem _ inRest, own⟩

/-- Handling a notification that can be read is a call for it. -/
theorem handle_eq_call (worker : Worker) (times : Worker.Times) {state : Worker.State}
    {n : Notification} (read : Notification.ofValue state.ids job.data = (.ok n, state.ids)) :
    worker.callFor times job state = some (worker.call times n state) ∧
      (worker.handle times job .sound state).2.2 =
        (worker.process times n .sound state).2.2 := by
  unfold Worker.callFor Worker.handle
  rw [read]
  exact ⟨rfl, rfl⟩

/-! ## The invariant -/

namespace Sound

theorem start (now : Time.Instant) {batches news : Queue} (noBatches : batches.contents = [])
    (noNews : news.contents = []) :
    Sound window now ⟨⟨batches, []⟩, ⟨news, []⟩, .empty window isShared, [], []⟩ := by
  have noMember {α : Type} {P : α → Prop} : ∀ x ∈ ([] : List α), P x :=
    fun x member => absurd member List.not_mem_nil
  exact ⟨⟨noBatches ▸ noMember, noMember, noMember⟩, ⟨noNews ▸ noMember, noMember, noMember⟩,
    noMember, noMember, .start window isShared now⟩

theorem withBatches (sound : t.Sound window now) {batches : Line} (all : batches.All Sourced) :
    Sound window now { t with batches } :=
  ⟨all, sound.news, sound.proper, sound.attempted, sound.recalls⟩

theorem withNews (sound : t.Sound window now) {news : Line}
    (all : news.All fun text => ∃ entry ∈ t.book, entry.payload = text) :
    Sound window now { t with news } :=
  ⟨sound.batches, all, sound.proper, sound.attempted, sound.recalls⟩

/-- The book grows by proper entries. -/
theorem withBook (sound : t.Sound window now) {news : Line} {more : List Entry}
    (all : news.All fun text => ∃ entry ∈ t.book ++ more, entry.payload = text)
    (proper : ∀ entry ∈ more, entry.Proper) :
    Sound window now { t with news, book := t.book ++ more } := by
  refine ⟨sound.batches, all, fun entry member => ?_, fun attempt member => ?_, sound.recalls⟩
  · exact (List.mem_append.1 member).elim (sound.proper entry) (proper entry)
  · obtain ⟨entry, kept, own⟩ := sound.attempted attempt member
    exact ⟨entry, List.mem_append_left _ kept, own⟩

/-- Notifications are put on the queue, and are entered. -/
theorem queues (sound : t.Sound window now) {queue : Queue} {made : List (Notification × Origin)}
    (plain : ∀ pair ∈ made, pair.2.Plain ∧ pair.1.id = pair.2.key)
    (contents : ∀ text ∈ queue.contents, text ∈ t.news.queue.contents ∨
      ∃ pair ∈ made, Broker.payload (.text pair.1.id) pair.1.toValue 0 = .ok text) :
    Sound window now { t with news.queue := queue, book := t.book ++ entriesOf made } := by
  have grown : t.news.All fun text => ∃ entry ∈ t.book ++ entriesOf made, entry.payload = text :=
    sound.news.imp fun text ⟨entry, kept, own⟩ => ⟨entry, List.mem_append_left _ kept, own⟩
  refine sound.withBook (grown.withQueue fun text member => ?_) fun entry member => ?_
  · rcases contents text member with old | ⟨⟨n, origin⟩, inMade, written⟩
    · exact grown.queued text old
    · exact ⟨⟨text, origin⟩, List.mem_append_right _ (mem_entriesOf.2 ⟨n, inMade, written⟩), rfl⟩
  · obtain ⟨n, inMade, written⟩ := mem_entriesOf.1 member
    obtain ⟨isPlain, own⟩ := plain _ inMade
    exact ⟨isPlain, n, .text n.id, 0, own, written⟩

theorem handleBatch (sound : t.Sound window now) (taken : job ∈ t.batches.taken) {store : Store}
    (plain : ∀ row ∈ store.detectionRules, ':' ∉ row.id.toList) (shown : Time.Instant)
    (engine : Engine) (ids : Ids) (lookups : List Delivery.Lookup) :
    Sound window now (t.after (.handleBatch job store shown engine ids lookups)) := by
  obtain ⟨source, named, -, own⟩ :=
    (sound.batches.taken job taken).sourceOf_eq (sound.batches.read job taken)
  obtain ⟨identify, contents⟩ :=
    queuedBy_spec (own.trans_ne named) store shown ⟨engine, ⟨ids, t.news.queue, lookups⟩⟩
  refine sound.queues ?_ fun text member => ?_
  · intro pair inMade
    obtain ⟨n, queued, rfl⟩ := List.mem_map.1 inMade
    obtain ⟨⟨row, stored, same⟩, key⟩ := identify n queued
    exact ⟨same ▸ plain row stored, key⟩
  · rcases contents text member with old | ⟨n, queued, written⟩
    · exact .inl old
    · exact .inr ⟨_, List.mem_map_of_mem queued, written⟩

theorem announce (sound : t.Sound window now) (firings : List Alert.Firing) :
    Sound window now (t.after (.announce firings)) := by
  refine sound.queues ?_ fun text member => ?_
  · intro pair inMade
    obtain ⟨firing, -, rfl⟩ := List.mem_map.1 inMade
    exact ⟨trivial, rfl⟩
  · rcases dispatch_contents firings t.news.queue text member with old | ⟨firing, fired, written⟩
    · exact .inl old
    · exact .inr ⟨_, List.mem_map_of_mem fired, written⟩

theorem news_written (sound : t.Sound window now) :
    ∀ text, (∃ entry ∈ t.book, entry.payload = text) → ∃ id data attempts,
      Broker.payload id data attempts = .ok text := by
  rintro _ ⟨entry, kept, rfl⟩
  exact (sound.proper entry kept).payload_written

/-- The origin of a notification that was taken. -/
theorem taken_news (sound : t.Sound window now) (taken : job ∈ t.news.taken) :
    ∃ entry ∈ t.book, entry.payload = job.payload ∧
      ∃ n : Notification, n.id = entry.origin.key ∧ job.data = n.toValue := by
  obtain ⟨entry, kept, own⟩ := sound.news.taken job taken
  exact ⟨entry, kept, own, (sound.proper entry kept).data (own ▸ sound.news.read job taken)⟩

/-- A notification that was taken can be read, so that there is an attempt to deliver it. -/
theorem deliver_eq (sound : t.Sound window now) (taken : job ∈ t.news.taken) (worker : Worker)
    (times : Worker.Times) (ids : Ids) (store : Store) (outside : Delivery.Outside) :
    let state : Worker.State := ⟨ids, store, t.ledger, outside⟩
    ∃ entry ∈ t.book, entry.payload = job.payload ∧ ∃ n : Notification, n.id = entry.origin.key ∧
      t.after (.deliver job worker times ids store outside) =
        { t with
          ledger := (worker.process times n .sound state).2.2.ledger
          attempts := t.attempts ++ [⟨job.payload, worker.call times n state⟩] } := by
  intro state
  obtain ⟨entry, kept, payload, n, own, data⟩ := sound.taken_news taken
  have named : n.id ≠ "" := own ▸ entry.origin.key_ne_empty
  have read : Notification.ofValue state.ids job.data = (.ok n, state.ids) :=
    data ▸ Notification.ofValue_toValue named state.ids
  obtain ⟨call, handled⟩ := handle_eq_call worker times read
  refine ⟨entry, kept, payload, n, own, ?_⟩
  simp only [Traffic.after]
  rw [call, handled]
  rfl

theorem deliver (sound : t.Sound window now) (taken : job ∈ t.news.taken) {worker : Worker}
    (uses : worker.usesLedger = true) {times : Worker.Times} (follow : times.Follow now) (ids : Ids)
    (store : Store) (outside : Delivery.Outside) :
    Sound window times.recorded (t.after (.deliver job worker times ids store outside)) := by
  obtain ⟨entry, kept, payload, n, own, after⟩ :=
    sound.deliver_eq taken worker times ids store outside
  have recalls : Worker.Recalls
      (worker.process times n .sound ⟨ids, store, t.ledger, outside⟩).2.2.ledger window
      times.recorded (t.attempts.map (·.call) ++
        [worker.call times n ⟨ids, store, t.ledger, outside⟩]) :=
    sound.recalls.called uses follow
  rw [after]
  refine ⟨sound.batches, sound.news, sound.proper, fun attempt member => ?_, ?_⟩
  · rcases List.mem_append.1 member with old | new
    · exact sound.attempted attempt old
    · rw [List.mem_singleton.1 new]
      exact ⟨entry, kept, payload, own⟩
  · rw [List.map_append]
    exact recalls

theorem retryNews (sound : t.Sound window now) (taken : job ∈ t.news.taken) :
    Sound window now (t.after (.retryNews job)) := by
  have grown : t.news.All fun text =>
      ∃ entry ∈ t.book ++ again t.book job, entry.payload = text :=
    sound.news.imp fun text ⟨entry, kept, own⟩ => ⟨entry, List.mem_append_left _ kept, own⟩
  obtain ⟨entry, kept, payload, n, own, data⟩ := sound.taken_news taken
  refine sound.withBook (grown.retry fun text written => ?_) fun retried member => ?_
  · have isAgain : (⟨text, entry.origin⟩ : Entry) ∈ again t.book job :=
      mem_again.2 ⟨⟨entry, kept, payload, rfl⟩, written⟩
    exact ⟨_, List.mem_append_right _ isAgain, rfl⟩
  · obtain ⟨⟨old, known, same, origin⟩, written⟩ := mem_again.1 member
    have read : Broker.Job.ofPayload old.payload = .ok (some job) :=
      same ▸ sound.news.read job taken
    obtain ⟨m, own', data'⟩ := (sound.proper old known).data read
    exact ⟨origin ▸ (sound.proper old known).plain, m, job.id, job.attempts + 1, origin ▸ own',
      data' ▸ written⟩

theorem submit (sound : t.Sound window now) (ids : Ids) {id : String} (named : id ≠ "")
    (data : Value) (attempts : Int) :
    Sound window now (t.after (.submit ids id data attempts)) := by
  have truthy : (Value.text id).truthy = true := bne_iff_ne.2 named
  unfold Traffic.after Queue.enqueue Queue.jobId
  simp only [if_pos truthy]
  obtain ⟨text, written, queued⟩ | ⟨error, failed⟩ :=
    t.batches.queue.enqueueAs_cases (.text id) data attempts
  · rw [queued]
    exact sound.withBatches (sound.batches.push ⟨id, data, attempts, named, written⟩)
  · rw [failed]
    exact sound

theorem retryBatch (sound : t.Sound window now) (taken : job ∈ t.batches.taken) :
    Sound window now (t.after (.retryBatch job)) := by
  obtain ⟨id, named, own, -⟩ :=
    (sound.batches.taken job taken).sourceOf_eq (sound.batches.read job taken)
  exact sound.withBatches (sound.batches.retry fun text written =>
    ⟨id, job.data, job.attempts + 1, named, own ▸ written⟩)

/-- **One step.** -/
theorem step (sound : t.Sound window now) {move : Move} (allowed : t.Allows now move) :
    Sound window (move.over now) (t.after move) := by
  cases move with
  | submit ids id data attempts => exact sound.submit ids allowed data attempts
  | takeBatch => exact sound.withBatches (sound.batches.take fun text => Sourced.written)
  | handleBatch job store shown engine ids lookups =>
      exact sound.handleBatch allowed.1 allowed.2 shown engine ids lookups
  | ackBatch job => exact sound.withBatches (sound.batches.ack job)
  | retryBatch job => exact sound.retryBatch allowed
  | requeueBatches => exact sound.withBatches sound.batches.requeueStale
  | announce firings => exact sound.announce firings
  | takeNews => exact sound.withNews (sound.news.take sound.news_written)
  | deliver job worker times ids store outside =>
      exact sound.deliver allowed.1 allowed.2.1 allowed.2.2 ids store outside
  | ackNews job => exact sound.withNews (sound.news.ack job)
  | retryNews job => exact sound.retryNews allowed
  | requeueNews => exact sound.withNews sound.news.requeueStale

/-- A whole run. -/
theorem of_run (run : Run window isShared now t) : t.Sound window now := by
  induction run with
  | start now noBatches noNews => exact .start now noBatches noNews
  | step before move allowed ih => exact ih.step allowed

end Sound

/-- The notification of an attempt bears the key of what it is for. -/
theorem Sound.id_of_isFor (sound : t.Sound window now) {attempt : Attempt} {origin : Origin}
    (known : attempt ∈ t.attempts) (isFor : t.IsFor attempt origin) :
    attempt.call.notification.id = origin.key := by
  obtain ⟨entry, kept, payload, own⟩ := sound.attempted attempt known
  rw [own, (sound.proper entry kept).origin_eq (sound.proper _ isFor) payload]

/-- **A batch notifies once, whoever handles it how often.**  Each attempt is for one batch and one
row, or for one firing.  It is skipped exactly if an earlier attempt for the same delivered without a
failed channel less than a window ago, so that nothing else can suppress it; and if it delivers as
well, then a whole window has passed.  Digests are taken to be different for different keys. -/
theorem batch_notifies_once {window : Int} {isShared : Bool} {now : Time.Instant} {t : Traffic}
    (run : Run window isShared now t)
    (distinct : ∀ entry ∈ t.book, ∀ other ∈ t.book,
      Digest.ofKey entry.origin.key = Digest.ofKey other.origin.key →
        entry.origin.key = other.origin.key) :
    (∀ attempt ∈ t.attempts, ∃! origin, t.IsFor attempt origin) ∧
      ∀ earlier attempt, earlier ++ [attempt] <+: t.attempts → ∀ origin, t.IsFor attempt origin →
        (attempt.call.skipped = true ↔ ∃ before ∈ earlier, t.IsFor before origin ∧
          before.call.Delivers ∧ before.call.Within window attempt.call.times.asked) ∧
        (attempt.call.Delivers → ∀ before ∈ earlier, t.IsFor before origin →
          before.call.Delivers → window * Time.second ≤
            attempt.call.times.asked.micros - before.call.times.recorded.micros) := by
  have sound := Sound.of_run run
  refine ⟨fun attempt known => ?_, fun earlier attempt part origin isFor => ?_⟩
  · obtain ⟨⟨payload, origin⟩, kept, rfl, -⟩ := sound.attempted attempt known
    exact ⟨origin, kept, fun other isFor =>
      (sound.proper _ isFor).origin_eq (sound.proper _ kept) rfl⟩
  have known : ∀ before ∈ earlier, before ∈ t.attempts :=
    fun before member => part.subset (List.mem_append_left _ member)
  have own := sound.id_of_isFor (part.subset (List.mem_append_right _ (List.mem_singleton_self _)))
    isFor
  have calls : earlier.map (·.call) ++ [attempt.call] <+: t.attempts.map (·.call) := by
    simpa using part.map (·.call)
  have skips : attempt.call.skipped = true ↔ ∃ before ∈ earlier, t.IsFor before origin ∧
      before.call.Delivers ∧ before.call.Within window attempt.call.times.asked := by
    rw [sound.recalls.skips _ _ calls]
    constructor
    · rintro ⟨call, member, delivers, same, within⟩
      obtain ⟨before, isBefore, rfl⟩ := List.mem_map.1 member
      obtain ⟨⟨payload, origin'⟩, kept, rfl, own'⟩ := sound.attempted before (known before isBefore)
      rw [own, own'] at same
      have origins : origin' = origin := Origin.key_injective (sound.proper _ kept).plain (sound.proper _ isFor).plain
        (distinct _ kept _ isFor same)
      exact ⟨before, isBefore, origins ▸ kept, delivers, within⟩
    · rintro ⟨before, isBefore, forSame, delivers, within⟩
      refine ⟨before.call, List.mem_map_of_mem isBefore, delivers, ?_, within⟩
      rw [own, sound.id_of_isFor (known before isBefore) forSame]
  refine ⟨skips, fun delivers before isBefore forSame delivered => ?_⟩
  by_contra within
  have skipped := skips.2 ⟨before, isBefore, forSame, delivered, Int.not_le.1 within⟩
  rw [delivers.1] at skipped
  cases skipped

/-! ## A batch that is handled twice -/

/-- A store with one rule, whose matches are told to a webhook. -/
def oneRule : Store :=
  let detection : Value :=
    .map [(.text "kw", .list [.text "psexec"]), (.text "condition", .text "kw")]
  { Store.empty with
    detectionRules :=
      [{ id := "row", organization := "o", project := none, sigmaId := "r", title := "T"
         description := none, author := none, date := none, level := none, status := none
         logsource := .map [], detection, tags := [], references := [], falsepositives := []
         tactics := [], techniques := [], alertRule := none, conversionStatus := some "success"
         conversionNotes := none, recipients := [], webhook := some "http://receiver" }] }

/-- A batch with one log, which the rule matches. -/
def oneLog : Value :=
  .map [(.text "organization_id", .text "o"), (.text "project_id", .null),
    (.text "logs", .list [.map [(.text "message", .text "psexec")]])]

/-- The job that was taken last. -/
def lastTaken (line : Line) : Broker.Job := line.taken.getLast?.getD default

/-- A batch has been submitted. -/
def submitted : Traffic :=
  let start : Traffic :=
    ⟨.empty "detection" 3 false, .empty "notifications" 3 false, .empty 60 true, [], []⟩
  start.after (.submit ⟨"gen", 0⟩ "a:b" oneLog 0)

/-- Handle the batch that was taken last. -/
def handled (t : Traffic) : Traffic :=
  t.after (.handleBatch (lastTaken t.batches) oneRule ⟨0⟩ (.fresh false 0) ⟨"gen", 0⟩ [])

/-- The batch is taken and handled twice. -/
def handledTwice : Traffic := handled (handled (submitted.after .takeBatch))

/-- Take a notification and deliver it at so many seconds. -/
def delivered (t : Traffic) (seconds : Int) : Traffic :=
  (t.after .takeNews).after (.deliver (lastTaken (t.after .takeNews).news) Worker.oneAttempt
    (Worker.atSecond seconds) ⟨"gen", 0⟩ oneRule .quiet)

theorem handled_run (run : Run 60 true now t) (taken : lastTaken t.batches ∈ t.batches.taken) :
    Run 60 true now (handled t) :=
  run.step (.handleBatch _ _ _ _ _ _) ⟨taken, by decide⟩

theorem takeBatch_batches (t : Traffic) : (t.after .takeBatch).batches = t.batches.take := rfl

theorem handled_batches (t : Traffic) : (handled t).batches = t.batches := rfl

theorem handledTwice_run : Run 60 true ⟨0⟩ handledTwice := by
  have run : Run 60 true ⟨0⟩ submitted :=
    (Run.start ⟨0⟩ rfl rfl).step (.submit ⟨"gen", 0⟩ "a:b" oneLog 0) (by unfold Allows; decide)
  have run' := run.step .takeBatch trivial
  have waits : submitted.batches.queue.waiting.length = 1 := by decide +kernel
  obtain ⟨text, waiting⟩ := List.length_eq_one_iff.1 waits
  obtain ⟨job, -, -, taken⟩ :=
    (Sound.of_run run).batches.take_cons (fun text => Sourced.written) waiting
  have member : lastTaken (submitted.after .takeBatch).batches ∈
      (submitted.after .takeBatch).batches.taken := by
    simp [takeBatch_batches, taken, lastTaken]
  have again : lastTaken (handled (submitted.after .takeBatch)).batches ∈
      (handled (submitted.after .takeBatch)).batches.taken := by
    rw [handled_batches]
    exact member
  exact handled_run (handled_run run' member) again

theorem handledTwice_queued : handledTwice.news.queue.waiting.length = 2 ∧
    ∀ entry ∈ handledTwice.book, entry.origin = .batch "a:b" "row" := by
  decide +kernel

theorem delivered_run (run : Run 60 true now t) {text : String} {rest : List String}
    (waiting : t.news.queue.waiting = text :: rest) (seconds : Int)
    (passes : now ≤ ⟨seconds * Time.second⟩) :
    Run 60 true ⟨seconds * Time.second⟩ (t.delivered seconds) ∧
      (t.delivered seconds).news.queue.waiting = rest ∧ (t.delivered seconds).book = t.book ∧
      ∃ attempt, (t.delivered seconds).attempts = t.attempts ++ [attempt] := by
  have sound := Sound.of_run run
  obtain ⟨job, -, -, taken⟩ := sound.news.take_cons sound.news_written waiting
  have member : lastTaken t.news.take ∈ t.news.take.taken := by
    simp [taken, lastTaken]
  have run' : Run 60 true now (t.after .takeNews) := run.step .takeNews trivial
  obtain ⟨-, -, -, n, -, after⟩ := (Sound.of_run run').deliver_eq member Worker.oneAttempt
    (Worker.atSecond seconds) ⟨"gen", 0⟩ oneRule .quiet
  refine ⟨run'.step (.deliver _ _ _ _ _ _) ⟨member, rfl, Worker.atSecond_follow seconds passes⟩, ?_⟩
  rw [delivered, show (t.after .takeNews).news = t.news.take from rfl, after]
  exact ⟨congrArg (·.queue.waiting) taken, rfl, _, rfl⟩

/-- Both notifications of the batch are delivered, one of them half a minute later. -/
def redelivered : Traffic := (handledTwice.delivered 0).delivered 30

/-- Both attempts are for the same rule that matched the same batch, and the second one is skipped
exactly if the first one delivered. -/
theorem batch_notifies_once_of_redelivered : ∃ first second,
    redelivered.attempts = [first, second] ∧
      (∃! origin, redelivered.IsFor second origin) ∧
      redelivered.IsFor second (.batch "a:b" "row") ∧
      (second.call.skipped = true ↔ ∃ before ∈ [first],
        redelivered.IsFor before (.batch "a:b" "row") ∧ before.call.Delivers ∧
          before.call.Within 60 second.call.times.asked) := by
  obtain ⟨two, origins⟩ := handledTwice_queued
  obtain ⟨text, text', waiting⟩ := List.length_eq_two.1 two
  obtain ⟨run, waiting', book, first, attempts⟩ :=
    delivered_run handledTwice_run waiting 0 (le_refl _)
  obtain ⟨run', -, book', second, attempts'⟩ := delivered_run run waiting' 30 (by decide)
  have both : redelivered.attempts = [first, second] := by
    rw [redelivered, attempts', attempts]
    rfl
  have origin : ∀ entry ∈ redelivered.book, entry.origin = .batch "a:b" "row" := by
    rw [redelivered, book', book]
    exact origins
  have distinct : ∀ entry ∈ redelivered.book, ∀ other ∈ redelivered.book,
      Digest.ofKey entry.origin.key = Digest.ofKey other.origin.key →
        entry.origin.key = other.origin.key := by
    intro entry kept other kept' _
    rw [origin entry kept, origin other kept']
  obtain ⟨one, once⟩ := batch_notifies_once run' distinct
  have last : [first] ++ [second] <+: redelivered.attempts := both ▸ List.prefix_refl _
  have known : second ∈ redelivered.attempts := last.subset (by simp)
  obtain ⟨own, isFor, -⟩ := one second known
  have isFor : redelivered.IsFor second (.batch "a:b" "row") := origin _ isFor ▸ isFor
  exact ⟨first, second, both, one second known, isFor, (once [first] second last _ isFor).1⟩

end Traffic

end LogAlert
