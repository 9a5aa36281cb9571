/-
# LogAlert.Proofs.Broker.Handover -- a job keeps its content on its way through a queue

Whoever adds a job of JSON data to a queue without jobs hands it over: the next reservation yields the
job with the same identifier, the same data and the same count of attempts, from a connection that
answers texts and from one that answers octets.  When the job fails it is written anew, with one more
attempt on its count, and the next reservation yields it again, however often this happens
(`iterate_failNext`).  What is taken from the second list is found by its text, so the text that was
reserved has to be the one that is held there; once the job is acknowledged or given up, nothing is
left of it.

Main statement: `enqueue_reserved`.
-/
import LogAlert.Proofs.Broker.Rounds

set_option autoImplicit false

namespace LogAlert

namespace Broker.Call

variable {job : Call}

/-- A job of JSON content is read from its payload as it is. -/
theorem kept_of_isJson (own : job.id.IsJson) (content : job.data.IsJson) : job.kept = job := by
  simp only [kept, own.reread_eq, content.reread_eq]

/-- What a job of JSON content is reserved as, is what it is to its handler. -/
theorem call_reserved (same : job.kept = job) (text : String) : (job.reserved text).call = job :=
  same

theorem kept_later_of_kept (same : job.kept = job) (n : Nat) :
    (job.later n).kept = job.later n := by
  rw [kept, Call.mk.injEq] at same
  simp only [kept, later, same]

theorem kept_later_again (same : job.kept = job) (n : Nat) :
    (job.later n).kept.later 1 = job.later (n + 1) := by
  rw [kept_later_of_kept same]
  simp only [later, Call.mk.injEq, true_and]
  omega

/-- A job of JSON content that has failed so often can be written for one attempt more. -/
theorem exists_again (own : job.id.IsJson) (content : job.data.IsJson) (n : Nat)
    (short : Value.isOverlong (job.attempts + n + 1) = false) :
    ∃ again, ((job.later n).kept.later 1).WrittenAs again := by
  rw [kept_later_of_kept (kept_of_isJson own content)]
  exact payload_total own content short

end Broker.Call

open Broker (Call)

namespace Queue

variable {queue : Queue} {job : Call} {text again : String} {rest : List String}

/-! ## Adding a job -/

/-- An identifier that is not empty is taken as it is given. -/
theorem jobId_text (ids : Ids) {id : String} (named : id ≠ "") (data : Value) :
    jobId ids (.text id) data = (.ok (.text id), ids) :=
  if_pos (bne_iff_ne.2 named)

/-- A job that can be written is then the only one of a queue that had none. -/
theorem enqueue_empty (name : String) (maxAttempts : Int) (asOctets : Bool) (ids : Ids) {id : String}
    {data : Value} {attempts : Int} (named : id ≠ "")
    (written : Broker.payload (.text id) data attempts = .ok text) :
    (empty name maxAttempts asOctets).enqueue .sound ids (.text id) data attempts =
      (.ok (.text id), (empty name maxAttempts asOctets).withWaiting [text], .sound, ids) :=
  enqueue_carried (jobId_text ids named data) written Link.send_sound

/-- A count with too many digits cannot be written, and then nothing is added. -/
theorem enqueue_overlong (queue : Queue) (ids : Ids) {id : String} (data : Value) {attempts : Int}
    (named : id ≠ "") (long : Value.isOverlong attempts = true) :
    queue.enqueue .sound ids (.text id) data attempts =
      (.error (.fault .overlongInteger), queue, .sound, ids) := by
  simp only [enqueue, jobId_text ids named, enqueueAs, Broker.payload_overlong id data long]
  rfl

/-! ## Jobs that fail -/

/-- The queue after the next job has been reserved and has failed. -/
def failNext (queue : Queue) : Queue :=
  match queue.reserve .sound with
  | (.ok (.job job), taken, _) => (taken.retry .sound job).2.1
  | (_, left, _) => left

/-- A job that has another attempt waits behind all others after it has failed. -/
theorem failNext_again (written : job.WrittenAs text)
    (another : job.attempts + 1 < queue.maxAttempts)
    (rewritten : (job.kept.later 1).WrittenAs again) :
    (queue.withWaiting (text :: rest)).failNext = queue.withWaiting (rest ++ [again]) := by
  simp only [failNext, reserve_written written, retry_again another rewritten]

/-- **However often a job fails, it waits with the same content and with its failures counted.** -/
theorem iterate_failNext (own : job.id.IsJson) (content : job.data.IsJson)
    (counted : 0 ≤ job.attempts) (written : job.WrittenAs text) (n : Nat)
    (allowed : n = 0 ∨ job.attempts + n < queue.maxAttempts)
    (short : Value.isOverlong (job.attempts + n) = false) :
    ∃ last, (job.later n).WrittenAs last ∧
      failNext^[n] (queue.withWaiting [text]) = queue.withWaiting [last] := by
  have same := Call.kept_of_isJson own content
  induction n with
  | zero => exact ⟨text, by rwa [job.later_zero], rfl⟩
  | succ n ih =>
      rw [Nat.cast_succ, ← add_assoc] at allowed short
      have another : job.attempts + n + 1 < queue.maxAttempts := allowed.resolve_left n.succ_ne_zero
      have fewer : Value.isOverlong (job.attempts + n) = false :=
        Value.isOverlong_of_smaller (by omega) (by omega) short
      obtain ⟨before, one, run⟩ := ih (.inr (by omega)) fewer
      obtain ⟨last, again⟩ := Call.exists_again own content n short
      refine ⟨last, Call.kept_later_again same n ▸ again, ?_⟩
      rw [Function.iterate_succ_apply', run, failNext_again one another again]
      rfl

/-! ## The whole way -/

/-- **A job keeps its content on its way through a queue.**  Whatever the limit on attempts, and
whether the connection answers texts or octets: a job of a non-empty identifier and of JSON data,
whose count of attempts can be written like the integers of its data (`enqueue_overlong` and
`retry_overlong` are about other counts), is accepted by a queue without jobs.  After any number of
failures that leave it another attempt, the next reservation yields this identifier and these data,
and the count that it was given with its failures added.  If it is then acknowledged, or given up
because its attempts are used up, both lists are empty; and otherwise it is put back, for the
reservation after one more failure. -/
theorem enqueue_reserved (name : String) (maxAttempts : Int) (asOctets : Bool) (ids : Ids)
    {id : String} {entries : List Value.Entry} {attempts : Int} (named : id ≠ "")
    (json : (Value.map entries).IsJson) (counted : 0 ≤ attempts)
    (short : Value.isOverlong attempts = false) :
    ∃ queue, (empty name maxAttempts asOctets).enqueue .sound ids (.text id) (.map entries) attempts =
        (.ok (.text id), queue, .sound, ids) ∧
      ∀ n : Nat, n = 0 ∨ attempts + n < maxAttempts → Value.isOverlong (attempts + n) = false →
        ∃ job taken, (failNext^[n] queue).reserve .sound = (.ok (.job job), taken, .sound) ∧
          job.call = ⟨.text id, .map entries, attempts + n⟩ ∧
          taken.ack .sound job = (.ok (), empty name maxAttempts asOctets, .sound) ∧
          (maxAttempts ≤ attempts + n + 1 →
            taken.retry .sound job = (.ok false, empty name maxAttempts asOctets, .sound)) ∧
          (attempts + n + 1 < maxAttempts → Value.isOverlong (attempts + n + 1) = false →
            taken.retry .sound job = (.ok true, failNext^[n + 1] queue, .sound)) := by
  obtain ⟨text, written⟩ := Broker.payload_total (.text id) json short
  let start := empty name maxAttempts asOctets
  let job : Call := ⟨.text id, .map entries, attempts⟩
  have same : job.kept = job := Call.kept_of_isJson (.text id) json
  refine ⟨start.withWaiting [text], enqueue_empty _ _ _ ids named written, fun n allowed short => ?_⟩
  obtain ⟨last, one, run⟩ := @iterate_failNext start job text (.text id) json counted written n
    allowed short
  rw [run, Function.iterate_succ_apply', run]
  refine ⟨(job.later n).reserved last, start.withTaken last [], reserve_written one [],
    Call.call_reserved (Call.kept_later_of_kept same n) last, ack_reserved, fun spent => ?_,
    fun left short => ?_⟩
  · have exhausted : start.maxAttempts ≤ (job.later n).attempts + 1 := spent
    exact retry_exhausted exhausted
  · have another : (job.later n).attempts + 1 < start.maxAttempts := left
    obtain ⟨next, again⟩ := @Call.exists_again job (.text id) json n short
    rw [failNext_again one another again]
    exact retry_again another again

/-- **A count of attempts can be too long to be handed over.** -/
theorem enqueue_not_reserved :
    ¬ ∀ (ids : Ids) (attempts : Int), 0 ≤ attempts →
      ∃ queue job taken, (empty "notifications" 3 false).enqueue .sound ids (.text "a") (.map [])
          attempts = (.ok (.text "a"), queue, .sound, ids) ∧
        queue.reserve .sound = (.ok (.job job), taken, .sound) ∧
        job.call = ⟨.text "a", .map [], attempts⟩ := by
  intro all
  obtain ⟨attempts, counted, -, long⟩ := Value.exists_last_short
  obtain ⟨queue, job, taken, added, -⟩ := all ⟨"gen", 0⟩ (attempts + 1) (by omega)
  rw [enqueue_overlong _ _ _ (show "a" ≠ "" by decide) long] at added
  cases congrArg Prod.fst added

/-- Data with texts that are escaped, the number 0.1, and a list in a list. -/
def nestedData : List Value.Entry :=
  Value.named [("née\n", .text "😀"), ("ratio", .float (.finite false 7205759403792794 (-56))),
    ("list", .list [.null, .bool true, .list [.int (-7)], .map []])]

theorem isJson_nestedData : (Value.map nestedData).IsJson := by
  have tenth : (Binary64.finite false 7205759403792794 (-56)).Canonical :=
    ⟨by norm_num, by norm_num, by norm_num, .inl (by norm_num)⟩
  refine .map (by simp) ?_
  simp only [List.forall_mem_cons]
  refine ⟨.text _, .float tenth, .list ?_, nofun⟩
  simp only [List.forall_mem_cons]
  refine ⟨.null, .bool true, .list ?_, .empty, nofun⟩
  simp only [List.forall_mem_cons]
  exact ⟨.int (by decide), nofun⟩

/-- A job that comes with one failure and may be attempted three times: it fails once more, and is
given up when it fails again. -/
theorem enqueue_reserved_third_attempt :
    ∃ queue job taken, (empty "notifications" 3 true).enqueue .sound ⟨"gen", 0⟩ (.text "alert:h-1")
          (.map nestedData) 1 = (.ok (.text "alert:h-1"), queue, .sound, ⟨"gen", 0⟩) ∧
      queue.failNext.reserve .sound = (.ok (.job job), taken, .sound) ∧
      job.call = ⟨.text "alert:h-1", .map nestedData, 2⟩ ∧
      taken.retry .sound job = (.ok false, empty "notifications" 3 true, .sound) := by
  obtain ⟨queue, added, reservations⟩ := enqueue_reserved "notifications" 3 true ⟨"gen", 0⟩
    (show "alert:h-1" ≠ "" by decide) isJson_nestedData (show (0 : Int) ≤ 1 by decide) (by decide)
  obtain ⟨job, taken, reserved, same, -, givenUp, -⟩ :=
    reservations 1 (.inr (by decide)) (by decide)
  exact ⟨queue, job, taken, added, reserved, same, givenUp (by decide)⟩

end Queue

end LogAlert
