/-
# LogAlert.Proofs.Broker.Rounds -- how often, and in what order, a consumer handles jobs

A job that fails goes back behind all jobs that wait, with one more attempt on its count, until it
succeeds or has used up its attempts.  So a consumer works in rounds.  `Queue.calls` says what the
handler is called with on account of one job: an attempt after the other, up to and including the
first that succeeds.  `InTurn` says in what order the calls for several jobs are made: the job in
front has its next call, and what is left of its calls goes behind the calls of all others.

* `handleAll_rounds`: a consumer that may make enough reservations makes exactly these calls, and
  leaves nothing on the queue.  What bounds the reservations is the number of calls that are left
  altogether; each reservation makes one of them.
* `consume_rounds`: the same for whatever is on the two lists when a consumer starts.

For this the counts of all these calls have to be such as can be written: a job that has failed too
often to count its failures is neither put back nor given up (`consume_not_rounds`).
-/
import LogAlert.Broker.Consumer
import LogAlert.Proofs.Broker.Taken
import Mathlib.Data.List.Forall2
import Mathlib.Data.List.Perm.Basic

set_option autoImplicit false

namespace LogAlert

/-! ## Calls -/

/-- The members of the lists in turn: the first one of the first list, then what the other lists say
before the rest of the first list. -/
inductive InTurn {α : Type} : List (List α) → List α → Prop where
  | nil : InTurn [] []
  | last {x : α} {others : List (List α)} {log : List α} :
      InTurn others log → InTurn ([x] :: others) (x :: log)
  | more {x y : α} {rest log : List α} {others : List (List α)} :
      InTurn (others ++ [y :: rest]) log → InTurn ((x :: y :: rest) :: others) (x :: log)

/-- Each member of each list has its turn, and nothing else has. -/
theorem InTurn.perm {α : Type} {lists : List (List α)} {log : List α} (inTurn : InTurn lists log) :
    log.Perm lists.flatten := by
  induction inTurn with
  | nil => exact .nil
  | last _ ih => exact ih.cons _
  | @more x y rest log others _ ih =>
      refine (ih.trans ?_).cons x
      rw [List.flatten_append, List.flatten_singleton]
      exact List.perm_append_comm

namespace Broker

/-- What a job is to its handler. -/
structure Call where
  id : Value
  data : Value
  /-- How many attempts have failed. -/
  attempts : Int

/-- What the handler is called with for a job that was reserved. -/
def Job.call (job : Job) : Call := ⟨job.id, job.data, job.attempts⟩

namespace Call

/-- The text is the payload that is written for the job. -/
def WrittenAs (call : Call) (text : String) : Prop :=
  payload call.id call.data call.attempts = .ok text

/-- The job as it is read from its payload. -/
def kept (call : Call) : Call := ⟨Json.reread call.id, Json.reread call.data, call.attempts⟩

/-- The same job after so many more attempts. -/
def later (call : Call) (n : Nat) : Call := { call with attempts := call.attempts + n }

theorem later_zero (call : Call) : call.later 0 = call := by simp [later]

theorem later_succ (call : Call) (n : Nat) : call.later (n + 1) = (call.later 1).later n := by
  simp only [later, Call.mk.injEq, true_and]
  omega

/-- A job that was read can be written again, and is then read as it is. -/
theorem kept_later {call : Call} {text : String} (written : call.WrittenAs text) (n : Nat) :
    (call.kept.later n).kept = call.kept.later n := by
  obtain ⟨own, content⟩ := isJson_of_payload written
  simp only [kept, later, own.reread_eq, content.reread_eq]

/-- The job as it is reserved with its payload. -/
def reserved (call : Call) (text : String) : Job :=
  ⟨call.kept.id, call.kept.data, call.attempts, text⟩

theorem ofPayload_writtenAs {call : Call} {text : String} (written : call.WrittenAs text) :
    Job.ofPayload text = .ok (some (call.reserved text)) :=
  ofPayload_payload written

end Call

end Broker

open Broker (Call)

namespace Queue

/-- How often a job is handled at most that has failed so often. -/
def turns (queue : Queue) (attempts : Int) : Nat := max 1 (queue.maxAttempts - attempts).toNat

/-- The calls for a job: one for each attempt, up to and including the first one that succeeds. -/
def calls (queue : Queue) (succeeds : Call → Bool) (job : Call) : List Call :=
  let attempts := (List.range (queue.turns job.attempts)).map job.later
  attempts.take (attempts.findIdx succeeds + 1)

section

variable {queue : Queue} {succeeds : Call → Bool} {job : Call}

/-- The last call for a job: it succeeds, or there is no other attempt. -/
theorem calls_last (last : succeeds job = true ∨ queue.maxAttempts ≤ job.attempts + 1) :
    queue.calls succeeds job = [job] := by
  obtain ⟨n, more⟩ : ∃ n, queue.turns job.attempts = n + 1 :=
    Nat.exists_eq_succ_of_ne_zero (by unfold turns; omega)
  rw [calls, more, List.range_succ_eq_map, List.map_cons, job.later_zero, List.findIdx_cons]
  rcases last with succeeded | exhausted
  · rw [succeeded]
    rfl
  · obtain rfl : n = 0 := by
      unfold turns at more
      omega
    cases succeeds job <;> rfl

/-- A call that fails, with another attempt behind it. -/
theorem calls_more (failed : succeeds job = false) (another : job.attempts + 1 < queue.maxAttempts) :
    queue.calls succeeds job = job :: queue.calls succeeds (job.later 1) := by
  have more : queue.turns job.attempts = queue.turns (job.later 1).attempts + 1 := by
    simp only [turns, Call.later]
    omega
  have others : List.map job.later (List.map Nat.succ
      (List.range (queue.turns (job.later 1).attempts))) =
        (List.range (queue.turns (job.later 1).attempts)).map (job.later 1).later := by
    rw [List.map_map]
    exact List.map_congr_left fun n _ => job.later_succ n
  simp only [calls, more, List.range_succ_eq_map, List.map_cons, others, job.later_zero,
    List.findIdx_cons, failed, cond_false, List.take_succ_cons]

theorem calls_ne_nil (queue : Queue) (succeeds : Call → Bool) (job : Call) :
    ∃ later, queue.calls succeeds job = job :: later := by
  by_cases last : succeeds job = true ∨ queue.maxAttempts ≤ job.attempts + 1
  · exact ⟨[], calls_last last⟩
  · rw [not_or, Bool.not_eq_true, not_le] at last
    exact ⟨_, calls_more last.1 last.2⟩

end

/-! ## One job -/

section

variable {queue : Queue} {job : Call} {text : String} {rest : List String}

/-- The queue with these texts waiting, and none being processed. -/
def withWaiting (queue : Queue) (texts : List String) : Queue :=
  { queue with waiting := texts, processing := [] }

/-- The queue with these texts waiting, and this one being processed. -/
def withTaken (queue : Queue) (text : String) (rest : List String) : Queue :=
  { queue with waiting := rest, processing := [text] }

theorem reserve_nothing (queue : Queue) :
    (queue.withWaiting []).reserve .sound = (.ok .nothing, queue.withWaiting [], .sound) := rfl

/-- Whoever reserves a job gets what was written. -/
theorem reserve_written (written : job.WrittenAs text) (rest : List String) :
    (queue.withWaiting (text :: rest)).reserve .sound =
      (.ok (.job (job.reserved text)), queue.withTaken text rest, .sound) :=
  reserve_carried rfl (Call.ofPayload_writtenAs written) Link.send_sound

theorem ack_reserved :
    (queue.withTaken text rest).ack .sound (job.reserved text) =
      (.ok (), queue.withWaiting rest, .sound) := by
  simp only [ack, sendRelease, Link.send_sound, release, withTaken, Call.reserved,
    List.erase_cons_head, withWaiting]

theorem conclude_succeeded :
    (queue.withTaken text rest).conclude .sound (job.reserved text) true =
      (.ok (), queue.withWaiting rest, .sound) :=
  ack_reserved

/-- A job that has used up its attempts is not put back. -/
theorem retry_exhausted (exhausted : queue.maxAttempts ≤ job.attempts + 1) :
    (queue.withTaken text rest).retry .sound (job.reserved text) =
      (.ok false, queue.withWaiting rest, .sound) := by
  have exhausted : (queue.withWaiting rest).maxAttempts ≤ (job.reserved text).attempts + 1 := exhausted
  simp only [retry, ack_reserved, if_pos exhausted]

/-- A job that has another attempt is put back behind all others. -/
theorem retry_again (another : job.attempts + 1 < queue.maxAttempts) {again : String}
    (rewritten : (job.kept.later 1).WrittenAs again) :
    (queue.withTaken text rest).retry .sound (job.reserved text) =
      (.ok true, queue.withWaiting (rest ++ [again]), .sound) := by
  have another : ¬ (queue.withWaiting rest).maxAttempts ≤ (job.reserved text).attempts + 1 :=
    not_le.2 another
  have rewritten : Broker.payload (job.reserved text).id (job.reserved text).data
      ((job.reserved text).attempts + 1) = .ok again := rewritten
  simp only [retry, ack_reserved, if_neg another, rewritten, sendPush, Link.send_sound, push]
  rfl

/-- A job that fails on its last attempt is given up. -/
theorem conclude_exhausted (exhausted : queue.maxAttempts ≤ job.attempts + 1) :
    (queue.withTaken text rest).conclude .sound (job.reserved text) false =
      (.ok (), queue.withWaiting rest, .sound) := by
  simp only [conclude, Bool.false_eq_true, if_false, retry_exhausted exhausted]
  rfl

/-- After the last call for a job nothing of it is left. -/
theorem conclude_last {handled : Bool}
    (last : handled = true ∨ queue.maxAttempts ≤ job.attempts + 1) :
    (queue.withTaken text rest).conclude .sound (job.reserved text) handled =
      (.ok (), queue.withWaiting rest, .sound) := by
  cases handled with
  | true => exact conclude_succeeded
  | false => exact conclude_exhausted (last.resolve_left Bool.false_ne_true)

/-- A job that fails on an earlier attempt waits behind all others. -/
theorem conclude_failed (another : job.attempts + 1 < queue.maxAttempts) {again : String}
    (rewritten : (job.kept.later 1).WrittenAs again) :
    (queue.withTaken text rest).conclude .sound (job.reserved text) false =
      (.ok (), queue.withWaiting (rest ++ [again]), .sound) := by
  simp only [conclude, Bool.false_eq_true, if_false, retry_again another rewritten]
  rfl

/-- A job that has another attempt is written again for it, if its failures can be counted. -/
theorem exists_rewritten (written : job.WrittenAs text)
    (short : Value.isOverlong (job.kept.later 1).attempts = false) :
    ∃ again, (job.kept.later 1).WrittenAs again := by
  obtain ⟨own, content⟩ := Broker.isJson_of_payload written
  exact Broker.payload_total own content short

/-- Otherwise it is removed, and not put back. -/
theorem retry_overlong {id : String} (own : job.kept.id = .text id)
    (another : job.attempts + 1 < queue.maxAttempts)
    (long : Value.isOverlong (job.attempts + 1) = true) :
    (queue.withTaken text rest).retry .sound (job.reserved text) =
      (.error (.fault .overlongInteger), queue.withWaiting rest, .sound) := by
  have another : ¬ (queue.withWaiting rest).maxAttempts ≤ (job.reserved text).attempts + 1 :=
    not_le.2 another
  have refused : Broker.payload (job.reserved text).id (job.reserved text).data
      ((job.reserved text).attempts + 1) = .error .overlongInteger := by
    rw [show (job.reserved text).id = .text id from own]
    exact Broker.payload_overlong id _ long
  simp only [retry, ack_reserved, if_neg another, refused]

end

/-! ## All jobs -/

section

variable {σ : Type} {handle : Broker.Job → Link → σ → Bool × Link × σ} {succeeds : Call → Bool}
  {queue : Queue}

/-- The state of a handler that is called with these jobs, one after the other. -/
def afterCalls (handle : Broker.Job → Link → σ → Bool × Link × σ) (log : List Broker.Job)
    (state : σ) : σ :=
  log.foldl (fun state job => (handle job .sound state).2.2) state

/-- A consumer that may make more reservations than so many calls these jobs from the waiting texts,
and then finds nothing. -/
def EndsAfter (handle : Broker.Job → Link → σ → Bool × Link × σ) (queue : Queue)
    (texts : List String) (state : σ) (turns : Nat) (log : List Broker.Job) : Prop :=
  ∀ fuel, turns < fuel → handleAll handle fuel (queue.withWaiting texts) .sound state =
    (.ok (), queue.withWaiting [], .sound, afterCalls handle log state)

theorem EndsAfter.nothing (queue : Queue) (state : σ) (turns : Nat) :
    EndsAfter handle queue [] state turns [] := by
  intro fuel enough
  obtain ⟨fuel, rfl⟩ := Nat.exists_eq_succ_of_ne_zero (Nat.ne_zero_of_lt enough)
  rw [handleAll, reserve_nothing]
  rfl

/-- One round of a consumer: a reservation, a call, and what becomes of the job. -/
theorem EndsAfter.call (decides : ∀ job state, (handle job .sound state).1 = succeeds job.call)
    (lossless : ∀ job state, (handle job .sound state).2.1 = .sound) {job : Call} {text : String}
    {rest left : List String} {state : σ} {turns fewer : Nat} {log : List Broker.Job}
    (written : job.WrittenAs text)
    (concluded : (queue.withTaken text rest).conclude .sound (job.reserved text)
      (succeeds job.kept) = (.ok (), queue.withWaiting left, .sound))
    (ends : EndsAfter handle queue left (handle (job.reserved text) .sound state).2.2 fewer log)
    (one : fewer < turns) :
    EndsAfter handle queue (text :: rest) state turns (job.reserved text :: log) := by
  intro fuel enough
  obtain ⟨fuel, rfl⟩ := Nat.exists_eq_succ_of_ne_zero (Nat.ne_zero_of_lt enough)
  have called : handle (job.reserved text) .sound state =
      (succeeds job.kept, .sound, (handle (job.reserved text) .sound state).2.2) :=
    Prod.ext (decides _ state) (Prod.ext (lossless _ state) rfl)
  rw [handleAll, reserve_written written]
  dsimp only
  rw [called]
  dsimp only
  rw [concluded]
  exact ends fuel (by omega)

/-- The calls that there can be for these jobs at most. -/
def turnsOf (queue : Queue) (jobs : List Call) : Nat :=
  (jobs.map fun job => queue.turns job.attempts).sum

theorem turnsOf_cons (queue : Queue) (job : Call) (jobs : List Call) :
    queue.turnsOf (job :: jobs) = queue.turns job.attempts + queue.turnsOf jobs := by
  rw [turnsOf, List.map_cons, List.sum_cons, turnsOf]

theorem turnsOf_done (queue : Queue) (job : Call) (jobs : List Call) :
    queue.turnsOf jobs < queue.turnsOf (job :: jobs) := by
  have some : 0 < queue.turns job.attempts := Nat.le_max_left ..
  rw [turnsOf_cons]
  omega

/-- A job that waits again has one call less. -/
theorem turnsOf_failed (queue : Queue) {job : Call} (jobs : List Call)
    (another : job.attempts + 1 < queue.maxAttempts) :
    queue.turnsOf (jobs ++ [job.kept.later 1]) < queue.turnsOf (job :: jobs) := by
  have spent : queue.turns job.attempts = queue.turns (job.kept.later 1).attempts + 1 := by
    simp only [turns, Call.later, Call.kept]
    omega
  rw [turnsOf_cons, spent]
  simp only [turnsOf, List.map_append, List.sum_append, List.map_singleton, List.sum_singleton]
  omega

/-- The failures of a job are counted from none on, as far as it is called, and can be written. -/
structure Countable (queue : Queue) (succeeds : Call → Bool) (job : Call) : Prop where
  counted : 0 ≤ job.attempts
  writable : ∀ call ∈ queue.calls succeeds job.kept, Value.isOverlong call.attempts = false

/-- A job that has another attempt is written for it with its failure counted, and the calls that
are left are the further ones. -/
theorem Countable.again {job : Call} {text : String} (countable : queue.Countable succeeds job)
    (written : job.WrittenAs text) (failed : succeeds job.kept = false)
    (another : job.attempts + 1 < queue.maxAttempts) :
    queue.Countable succeeds (job.kept.later 1) ∧ ∃ again, (job.kept.later 1).WrittenAs again := by
  have calls : queue.calls succeeds job.kept =
      job.kept :: queue.calls succeeds (job.kept.later 1) := calls_more failed another
  obtain ⟨_, first⟩ := queue.calls_ne_nil succeeds (job.kept.later 1)
  refine ⟨⟨Int.add_nonneg countable.counted (by decide), fun call left => ?_⟩, ?_⟩
  · rw [Call.kept_later written] at left
    exact countable.writable call (calls ▸ List.mem_cons_of_mem _ left)
  · exact exists_rewritten written (countable.writable _ (by simp [calls, first]))

/-- **A consumer makes the calls for all jobs in turn, and leaves nothing behind**, if it may make
one more reservation than there can be calls. -/
theorem handleAll_rounds
    (decides : ∀ job state, (handle job .sound state).1 = succeeds job.call)
    (lossless : ∀ job state, (handle job .sound state).2.1 = .sound) {jobs : List Call}
    {texts : List String} (written : List.Forall₂ Call.WrittenAs jobs texts)
    (countable : ∀ job ∈ jobs, queue.Countable succeeds job) (state : σ) :
    ∃ log, EndsAfter handle queue texts state (queue.turnsOf jobs) log ∧
      InTurn (jobs.map fun job => queue.calls succeeds job.kept) (log.map Broker.Job.call) := by
  -- each round makes one of the calls that are left
  induction left : queue.turnsOf jobs using Nat.strong_induction_on generalizing jobs texts state with
  | h turns ih =>
    subst left
    cases written with
    | nil => exact ⟨[], .nothing queue state _, .nil⟩
    | @cons job text jobs texts one others =>
        obtain ⟨first, further⟩ := List.forall_mem_cons.1 countable
        by_cases last : succeeds job.kept = true ∨ queue.maxAttempts ≤ job.attempts + 1
        · have fewer := queue.turnsOf_done job jobs
          obtain ⟨log, ends, inTurn⟩ := ih _ fewer others further _ rfl
          refine ⟨job.reserved text :: log,
            ends.call decides lossless one (conclude_last last) fewer, ?_⟩
          have own : queue.calls succeeds job.kept = [job.kept] := calls_last last
          rw [List.map_cons, own]
          exact .last inTurn
        · rw [not_or, Bool.not_eq_true, not_le] at last
          obtain ⟨failed, another⟩ := last
          obtain ⟨stillFirst, again, rewritten⟩ := first.again one failed another
          have concluded : (queue.withTaken text texts).conclude .sound (job.reserved text)
              (succeeds job.kept) = (.ok (), queue.withWaiting (texts ++ [again]), .sound) := by
            rw [failed]
            exact conclude_failed another rewritten
          have still : ∀ other ∈ jobs ++ [job.kept.later 1], queue.Countable succeeds other :=
            List.forall_mem_append.2 ⟨further, List.forall_mem_singleton.2 stillFirst⟩
          have fewer := queue.turnsOf_failed jobs another
          obtain ⟨log, ends, inTurn⟩ :=
            ih _ fewer (List.rel_append others (.cons rewritten .nil)) still _ rfl
          refine ⟨job.reserved text :: log, ends.call decides lossless one concluded fewer, ?_⟩
          obtain ⟨later, calls⟩ := queue.calls_ne_nil succeeds (job.kept.later 1)
          have own : queue.calls succeeds job.kept = job.kept :: job.kept.later 1 :: later :=
            (calls_more failed another).trans (congrArg _ calls)
          rw [List.map_append, List.map_singleton, Call.kept_later one, calls] at inTurn
          rw [List.map_cons, own]
          exact .more inTurn

end

/-! ## A consumer -/

/-- What is being processed goes behind what waits, in its order. -/
theorem putBack_all (moved : Nat) (texts : List String) (queue : Queue)
    (all : queue.processing = texts) :
    putBack moved texts queue .sound =
      (.ok (moved + texts.length), queue.withWaiting (queue.waiting ++ texts), .sound) := by
  induction texts generalizing moved queue with
  | nil =>
      obtain ⟨name, maxAttempts, asOctets, waiting, processing⟩ := queue
      obtain rfl : processing = [] := all
      simp [putBack, Link.send_sound, withWaiting]
  | cons text rest ih =>
      rw [putBack, Link.send_sound]
      dsimp only
      rw [ih _ _ rfl]
      simp [withWaiting, Nat.add_comm, Nat.add_left_comm]

theorem handlings_written (queue : Queue) {job : Call} {text : String}
    (written : job.WrittenAs text) : queue.handlings text = queue.turns job.attempts := by
  simp only [handlings, Call.ofPayload_writtenAs written, Call.reserved, turns]

/-- A consumer may make one more reservation than there can be calls. -/
theorem workload_written (queue : Queue) {jobs : List Call} {texts : List String}
    (written : List.Forall₂ Call.WrittenAs jobs texts) :
    (queue.withWaiting texts).workload .sound =
      queue.turnsOf jobs + 1 := by
  have content : (queue.withWaiting texts).waiting ++ (queue.withWaiting texts).processing = texts :=
    List.append_nil texts
  rw [workload, content]
  induction written with
  | nil => rfl
  | @cons job text jobs texts one others ih =>
      have turns : (queue.withWaiting (text :: texts)).handlings text = queue.turns job.attempts :=
        handlings_written _ one
      rw [List.foldr_cons, turns, turnsOf_cons, Nat.add_assoc, ← ih (List.append_nil _)]
      rfl

/-- **Each job is handled as often as it should be, and consuming a queue ends.**  Whatever jobs are
on the two lists, as payloads are written, and whatever their counts of attempts and the limit on
them: if no command is lost, and success depends on nothing but the job and its count, then a consumer
calls its handler for each job with one count after the other, up to and including the first call
that succeeds, or until the attempts are used up; as long as each of these counts can be written.
Calls for several jobs are made in turn.  Then both lists are empty; any more reservations than the
consumer may make would not change this. -/
theorem consume_rounds {σ : Type} (handle : Broker.Job → Link → σ → Bool × Link × σ)
    (succeeds : Call → Bool) (queue : Queue) (jobs : List Call) (state : σ)
    (written : List.Forall₂ Call.WrittenAs jobs (queue.waiting ++ queue.processing))
    (counted : ∀ job ∈ jobs, 0 ≤ job.attempts)
    (writable : ∀ job ∈ jobs, ∀ call ∈ queue.calls succeeds job.kept,
      Value.isOverlong call.attempts = false)
    (decides : ∀ job state, (handle job .sound state).1 = succeeds job.call)
    (lossless : ∀ job state, (handle job .sound state).2.1 = .sound) :
    ∃ log : List Broker.Job,
      queue.consume handle .sound state =
          (.ok (), { queue with waiting := [], processing := [] }, .sound,
            afterCalls handle log state) ∧
        (∀ fuel, queue.workload .sound ≤ fuel →
          handleAll handle fuel (queue.requeueStale .sound).2.1 .sound state =
            queue.consume handle .sound state) ∧
        InTurn (jobs.map fun job => queue.calls succeeds job.kept) (log.map Broker.Job.call) ∧
        (log.map Broker.Job.call).Perm (jobs.flatMap fun job => queue.calls succeeds job.kept) := by
  have countable : ∀ job ∈ jobs, queue.Countable succeeds job :=
    fun job member => ⟨counted job member, writable job member⟩
  obtain ⟨log, ends, inTurn⟩ := handleAll_rounds decides lossless written countable state
  have stale : queue.requeueStale .sound = (.ok queue.processing.length,
      queue.withWaiting (queue.waiting ++ queue.processing), .sound) := by
    rw [requeueStale, putBack_all 0 queue.processing queue rfl, Nat.zero_add]
  have workload := queue.workload_written written
  have consumed : queue.consume handle .sound state =
      (.ok (), queue.withWaiting [], .sound, afterCalls handle log state) := by
    rw [consume, stale]
    exact ends _ (by rw [workload]; omega)
  refine ⟨log, consumed, fun fuel enough => ?_, inTurn, inTurn.perm⟩
  rw [stale, consumed]
  have same : queue.workload .sound =
      (queue.withWaiting (queue.waiting ++ queue.processing)).workload .sound := by
    rw [Queue.workload, Queue.workload, withWaiting, List.append_nil]
    rfl
  exact ends fuel (by omega)

/-- A job that waits after one failure, and one that somebody has left behind. -/
def twoJobs : Queue :=
  { name := "notifications", maxAttempts := 3, asOctets := false
    waiting := ["\x7b\"id\": \"a\", \"attempts\": 1, \"data\": \x7b\x7d\x7d"]
    processing := ["\x7b\"id\": \"b\", \"attempts\": 0, \"data\": \x7b\x7d\x7d"] }

/-- The job without data of this name. -/
def nameless (name : String) (attempts : Int) : Call := ⟨.text name, .map [], attempts⟩

/-- The job `b` succeeds at its second attempt, and no other job does. -/
def onlySecond (job : Call) : Bool :=
  match job.id with
  | .text name => name == "b" && job.attempts == 1
  | _ => false

/-- A handler that remembers its calls. -/
def remembering (succeeds : Call → Bool) (job : Broker.Job) (link : Link) (calls : List Call) :
    Bool × Link × List Call :=
  (succeeds job.call, link, calls ++ [job.call])

theorem afterCalls_remembering (succeeds : Call → Bool) (log : List Broker.Job)
    (calls : List Call) :
    afterCalls (remembering succeeds) log calls = calls ++ log.map Broker.Job.call := by
  induction log generalizing calls with
  | nil => exact (List.append_nil calls).symm
  | cons job log ih =>
      rw [List.map_cons, List.append_cons]
      exact ih _

/-- Two jobs, of which one is given up after its third attempt and the other succeeds at its second:
each is called twice, and in turn. -/
theorem consume_rounds_two_jobs :
    twoJobs.consume (remembering onlySecond) .sound [] =
      (.ok (), { twoJobs with waiting := [], processing := [] }, .sound,
        [nameless "a" 1, nameless "b" 0, nameless "a" 2, nameless "b" 1]) := by
  have written : List.Forall₂ Call.WrittenAs [nameless "a" 1, nameless "b" 0]
      (twoJobs.waiting ++ twoJobs.processing) := .cons (by rfl) (.cons (by rfl) .nil)
  have counted : ∀ job ∈ [nameless "a" 1, nameless "b" 0], 0 ≤ job.attempts := by
    simp [nameless]
  have calls : ([nameless "a" 1, nameless "b" 0].map fun job =>
      twoJobs.calls onlySecond job.kept) =
        [[nameless "a" 1, nameless "a" 2], [nameless "b" 0, nameless "b" 1]] := by rfl
  have writable : ∀ job ∈ [nameless "a" 1, nameless "b" 0],
      ∀ call ∈ twoJobs.calls onlySecond job.kept, Value.isOverlong call.attempts = false := by
    decide
  obtain ⟨log, consumed, -, inTurn, -⟩ := consume_rounds (remembering onlySecond) onlySecond twoJobs
    _ [] written counted writable (fun _ _ => rfl) (fun _ _ => rfl)
  rw [calls] at inTurn
  rw [consumed, afterCalls_remembering, List.nil_append]
  generalize log.map Broker.Job.call = called at inTurn ⊢
  cases inTurn with
  | more inTurn => cases inTurn with
    | more inTurn => cases inTurn with
      | last inTurn => cases inTurn with
        | last inTurn => cases inTurn; rfl

/-! ## A job that has failed too often -/

/-- The only job of a queue has another attempt, but its failures cannot be counted any more: whoever
retries it removes it from the queue, and then ends with an error. -/
theorem consume_overlong {queue : Queue} {job : Call} {text id : String} {calls : List Call}
    (written : job.WrittenAs text) (own : job.kept.id = .text id)
    (another : job.attempts + 1 < queue.maxAttempts)
    (long : Value.isOverlong (job.attempts + 1) = true) :
    (queue.withWaiting [text]).consume (remembering fun _ => false) .sound calls =
      (.error (.fault .overlongInteger), queue.withWaiting [], .sound, calls ++ [job.kept]) := by
  have stale : (queue.withWaiting [text]).requeueStale .sound =
      (.ok 0, queue.withWaiting [text], .sound) :=
    putBack_all 0 [] (queue.withWaiting [text]) rfl
  have failed : (queue.withTaken text []).retry .sound (job.reserved text) =
      (.error (.fault .overlongInteger), queue.withWaiting [], .sound) :=
    retry_overlong own another long
  rw [consume, stale]
  dsimp only
  rw [workload_written queue (.cons written .nil), handleAll, reserve_written written []]
  simp only [remembering, conclude, Bool.false_eq_true, if_false, failed]
  rfl

/-- **A job can have failed too often**, so that consuming the queue it waits on does not go on until
it is given up. -/
theorem consume_not_rounds :
    ¬ ∀ (queue : Queue) (jobs : List Call) (succeeds : Call → Bool),
      List.Forall₂ Call.WrittenAs jobs (queue.waiting ++ queue.processing) →
      (∀ job ∈ jobs, 0 ≤ job.attempts) →
      ∃ log, queue.consume (remembering succeeds) .sound [] =
          (.ok (), { queue with waiting := [], processing := [] }, .sound, log) ∧
        log.Perm (jobs.flatMap fun job => queue.calls succeeds job.kept) := by
  intro all
  obtain ⟨attempts, counted, short, long⟩ := Value.exists_last_short
  let job : Call := nameless "a" attempts
  obtain ⟨text, written⟩ : ∃ text, job.WrittenAs text :=
    Broker.payload_total (.text "a") .empty short
  let queue : Queue := empty "notifications" (attempts + 2) false
  obtain ⟨log, consumed, -⟩ := all (queue.withWaiting [text]) [job] (fun _ => false)
    (.cons written .nil) (List.forall_mem_singleton.2 counted)
  have another : job.attempts + 1 < queue.maxAttempts := by
    show attempts + 1 < attempts + 2
    omega
  rw [consume_overlong written (show job.kept.id = .text "a" from rfl) another long] at consumed
  cases congrArg Prod.fst consumed

end Queue

end LogAlert
