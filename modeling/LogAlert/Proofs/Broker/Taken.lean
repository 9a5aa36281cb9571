/-
# LogAlert.Proofs.Broker.Taken -- jobs that somebody has taken

Several workers may use one queue, and any of them may die.  A `Line` is a queue with all jobs that
have ever been taken from it: who has taken a job may finish it at any time, repeatedly or never,
whatever has happened to the queue meanwhile.  What is true of the payloads on a queue is then true
of the jobs that were taken as well (`Line.All`); of the operations only `Line.retry` can put a new
payload there.
-/
import LogAlert.Proofs.Broker.Accounting

set_option autoImplicit false

namespace LogAlert

theorem Link.send_sound : Link.sound.send = (true, .sound) := rfl

/-- A queue and the jobs that have been taken from it. -/
structure Line where
  queue : Queue
  taken : List Broker.Job

namespace Line

/-- A queue without jobs, which nobody has used. -/
def empty (name : String) (maxAttempts : Int) (asOctets : Bool) : Line :=
  ⟨.empty name maxAttempts asOctets, []⟩

/-- Take the job that has waited longest. -/
def take (line : Line) : Line :=
  match line.queue.reserve .sound with
  | (.ok (.job job), queue, _) => ⟨queue, line.taken ++ [job]⟩
  | (_, queue, _) => { line with queue }

/-- A job is done. -/
def ack (line : Line) (job : Broker.Job) : Line :=
  { line with queue := (line.queue.ack .sound job).2.1 }

/-- A job has failed. -/
def retry (line : Line) (job : Broker.Job) : Line :=
  { line with queue := (line.queue.retry .sound job).2.1 }

/-- Put back all jobs that are being processed. -/
def requeueStale (line : Line) : Line :=
  { line with queue := (line.queue.requeueStale .sound).2.1 }

/-- This is true of all payloads on the queue and of those of the jobs that were taken, and these
jobs are what their payloads say. -/
structure All (P : String → Prop) (line : Line) : Prop where
  queued : ∀ text ∈ line.queue.contents, P text
  taken : ∀ job ∈ line.taken, P job.payload
  read : ∀ job ∈ line.taken, Broker.Job.ofPayload job.payload = .ok (some job)

namespace All

variable {P Q : String → Prop} {line : Line} {job : Broker.Job}

theorem empty (P : String → Prop) (name : String) (maxAttempts : Int) (asOctets : Bool) :
    (Line.empty name maxAttempts asOctets).All P :=
  ⟨nofun, nofun, nofun⟩

theorem imp (all : line.All P) (implies : ∀ text, P text → Q text) : line.All Q :=
  ⟨fun text member => implies text (all.queued text member),
    fun job member => implies _ (all.taken job member), all.read⟩

/-- The queue is replaced by one with payloads of which this is true. -/
theorem withQueue (all : line.All P) {queue : Queue} (queued : ∀ text ∈ queue.contents, P text) :
    All P { line with queue } :=
  ⟨queued, all.taken, all.read⟩

theorem push (all : line.All P) {text : String} (holds : P text) :
    All P { line with queue := line.queue.push text } := by
  refine all.withQueue fun other member => ?_
  rcases List.mem_cons.1 ((Queue.contents_push line.queue text).mem_iff.1 member) with rfl | old
  · exact holds
  · exact all.queued other old

theorem release (all : line.All P) (text : String) :
    ∀ other ∈ (line.queue.release text).contents, P other := by
  intro other member
  refine all.queued other ?_
  rcases List.mem_append.1 member with waits | processed
  · exact List.mem_append_left _ waits
  · exact List.mem_append_right _ (List.mem_of_mem_erase processed)

/-- Whoever takes a job gets the one that has waited longest. -/
theorem take_cons (all : line.All P) (written : ∀ text, P text → ∃ id data attempts,
    Broker.payload id data attempts = .ok text) {text : String} {rest : List String}
    (waiting : line.queue.waiting = text :: rest) :
    ∃ job, job.payload = text ∧ Broker.Job.ofPayload text = .ok (some job) ∧
      line.take = ⟨{ line.queue with
        waiting := rest, processing := line.queue.processing ++ [text] }, line.taken ++ [job]⟩ := by
  have member : text ∈ line.queue.contents :=
    List.mem_append_left _ (waiting ▸ List.mem_cons_self)
  obtain ⟨id, data, attempts, own⟩ := written text (all.queued text member)
  have read := Broker.ofPayload_payload own
  refine ⟨_, rfl, read, ?_⟩
  rw [Line.take, Queue.reserve_carried waiting read Link.send_sound]

theorem take (all : line.All P) (written : ∀ text, P text → ∃ id data attempts,
    Broker.payload id data attempts = .ok text) : line.take.All P := by
  cases waiting : line.queue.waiting with
  | nil =>
      have same : line.take = line := by
        unfold Line.take Queue.reserve
        simp only [Link.send_sound, waiting]
      rwa [same]
  | cons text rest =>
      obtain ⟨job, rfl, read, taken⟩ := all.take_cons written waiting
      have contents : line.queue.contents = job.payload :: (rest ++ line.queue.processing) := by
        rw [Queue.contents, waiting, List.cons_append]
      have holds : P job.payload := all.queued _ (contents ▸ List.mem_cons_self)
      rw [taken]
      refine ⟨fun text member => all.queued text ?_, fun other member => ?_, fun other member => ?_⟩
      · simp only [Queue.contents, List.mem_append, List.mem_singleton] at member
        rw [contents, List.mem_cons, List.mem_append]
        tauto
      · rcases List.mem_append.1 member with old | new
        · exact all.taken other old
        · rwa [List.mem_singleton.1 new]
      · rcases List.mem_append.1 member with old | new
        · exact all.read other old
        · rwa [List.mem_singleton.1 new]

theorem ack (all : line.All P) (job : Broker.Job) : (line.ack job).All P := by
  rcases done : line.queue.ack .sound job with ⟨result, after, link⟩
  unfold Line.ack
  rw [done]
  obtain ⟨-, -, rfl⟩ | ⟨-, -, rfl⟩ := Queue.ack_cases done
  · exact all.withQueue (all.release job.payload)
  · exact all

theorem retry (all : line.All P) (again : ∀ text,
    Broker.payload job.id job.data (job.attempts + 1) = .ok text → P text) :
    (line.retry job).All P := by
  have released := all.withQueue (all.release job.payload)
  rcases done : line.queue.retry .sound job with ⟨result, after, link⟩
  unfold Line.retry
  rw [done]
  obtain ⟨-, rfl, -⟩ | ⟨-, rfl, -⟩ | ⟨text, written, -, rfl, -⟩ | ⟨-, rfl, -⟩ :=
    Queue.retry_cases done
  · exact all
  · exact released
  · exact released.push (again text written)
  · exact released

theorem requeueStale (all : line.All P) : line.requeueStale.All P := by
  have same := Queue.putBack_perm line.queue.processing 0 line.queue .sound rfl
  exact all.withQueue fun text member => all.queued text (same.mem_iff.1 member)

end All

end Line

end LogAlert
