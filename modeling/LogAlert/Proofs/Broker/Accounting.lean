/-
# LogAlert.Proofs.Broker.Accounting -- what becomes of the jobs of a queue

A `Usage` is a queue as its consumer uses it: at most one job is being handled, a job is finished
once, and stale jobs are put back only while none is handled.  Beside the queue it keeps a book with
one entry for each job that was enqueued, in the form in which the job was last put on the queue.
An entry is owed until its job is acknowledged or has used up its attempts.

Every command of every step may be lost.  What the invariant `Sound` says is that the jobs that are
owed are exactly those on the two lists together with those that were mislaid: a retry first removes
its job and then adds it again, so if the second command is lost the job is nowhere (`mislays`).
Nothing else loses a job or makes it two.

Main statement: `jobs_owed_iff`.
-/
import LogAlert.Broker.Queue
import LogAlert.Proofs.Broker.Envelope

set_option autoImplicit false

namespace LogAlert.Queue

open List

/-- What has become of a job that was enqueued. -/
inductive Fate where
  | owed
  | acknowledged
  | exhausted
deriving DecidableEq, Repr

/-- A job that was enqueued, in the form in which it was last put on the queue. -/
structure Entry where
  payload : String
  fate : Fate
deriving DecidableEq, Repr

/-- The payloads of the jobs that are owed. -/
def owed (book : List Entry) : List String :=
  (book.filter fun entry => entry.fate = .owed).map (·.payload)

/-- The payloads on the two lists of a queue. -/
def contents (queue : Queue) : List String := queue.waiting ++ queue.processing

/-- A queue in use. -/
structure Usage where
  queue : Queue
  /-- The job that is being handled. -/
  held : Option Broker.Job
  book : List Entry

/-- What a user of a queue does. -/
inductive Act where
  | enqueue (ids : Ids) (id data : Value) (attempts : Int)
  | reserve
  /-- The job that is being handled is done. -/
  | ack
  /-- The job that is being handled has failed. -/
  | retry
  | requeueStale
  /-- The user dies over the job that is being handled. -/
  | abandon

namespace Usage

/-- A queue without jobs. -/
def start (name : String) (maxAttempts : Int) (asOctets : Bool) : Usage :=
  ⟨.empty name maxAttempts asOctets, none, []⟩

/-- Write down what becomes of an owed job with this payload. -/
def enter (book : List Entry) (payload : String) (after : Entry) : List Entry :=
  book.replace ⟨payload, .owed⟩ after

/-- Add a job, and write it down if that succeeds. -/
def enqueue (u : Usage) (link : Link) (ids : Ids) (id data : Value) (attempts : Int) : Usage :=
  match u.queue.enqueue link ids id data attempts with
  | (.error _, queue, _, _) => { u with queue }
  | (.ok id, queue, _, _) =>
    match Broker.payload id data attempts with
    | .error _ => { u with queue }
    | .ok payload => { u with queue, book := u.book ++ [⟨payload, .owed⟩] }

/-- Take the next job, in place of the one that was being handled. -/
def reserve (u : Usage) (link : Link) : Usage :=
  match u.queue.reserve link with
  | (.ok reserved, queue, _) => { u with queue, held := reserved.job? }
  | (.error _, queue, _) => { u with queue, held := none }

/-- Finish a job that was handled. -/
def ack (u : Usage) (link : Link) (job : Broker.Job) : Usage :=
  match u.queue.ack link job with
  | (.ok (), queue, _) =>
    ⟨queue, none, enter u.book job.payload ⟨job.payload, .acknowledged⟩⟩
  | (.error _, queue, _) => { u with queue, held := none }

/-- Finish a job whose handling failed. -/
def retry (u : Usage) (link : Link) (job : Broker.Job) : Usage :=
  match u.queue.retry link job with
  | (.ok false, queue, _) => ⟨queue, none, enter u.book job.payload ⟨job.payload, .exhausted⟩⟩
  | (.ok true, queue, _) =>
    match Broker.payload job.id job.data (job.attempts + 1) with
    | .ok payload => ⟨queue, none, enter u.book job.payload ⟨payload, .owed⟩⟩
    | .error _ => { u with queue, held := none }
  | (.error _, queue, _) => { u with queue, held := none }

/-- What an act does; a job can only be finished while it is being handled, and stale jobs are put
back only while none is. -/
def step (u : Usage) (link : Link) : Act → Usage
  | .enqueue ids id data attempts => u.enqueue link ids id data attempts
  | .reserve => u.reserve link
  | .ack => u.held.elim u (u.ack link)
  | .retry => u.held.elim u (u.retry link)
  | .requeueStale =>
    if u.held.isNone then { u with queue := (u.queue.requeueStale link).2.1 } else u
  | .abandon => { u with held := none }

/-- What a series of acts does, each with the fate of its own commands. -/
def run (u : Usage) (acts : List (Act × Link)) : Usage :=
  acts.foldl (fun u (act, link) => u.step link act) u

end Usage

/-- A retry removes the job, does not give it up, and does not put it back either. -/
def mislays (queue : Queue) (link : Link) (job : Broker.Job) : Bool :=
  link.send.1 && decide (job.attempts + 1 < queue.maxAttempts) &&
    match Broker.payload job.id job.data (job.attempts + 1) with
    | .ok _ => !link.send.2.send.1
    | .error _ => true

namespace Usage

/-- The payload of the job that an act mislays, if it does. -/
def mislaidBy (u : Usage) (link : Link) : Act → List String
  | .retry => u.held.elim [] fun job => if u.queue.mislays link job then [job.payload] else []
  | _ => []

/-- The payloads of the jobs that a series of acts mislays. -/
def mislaid (u : Usage) : List (Act × Link) → List String
  | [] => []
  | (act, link) :: rest => u.mislaidBy link act ++ (u.step link act).mislaid rest

/-- What holds of a queue in use at any time, when these payloads were mislaid: the jobs that are
owed are those on the queue and the mislaid ones, all payloads are those of jobs, and the job that
is being handled is among those being processed. -/
structure Sound (u : Usage) (lost : List String) : Prop where
  accounted : owed u.book ~ u.queue.contents ++ lost
  written : ∀ text ∈ u.queue.contents, ∃ id data attempts,
    Broker.payload id data attempts = .ok text
  handled : ∀ job, u.held = some job → job.payload ∈ u.queue.processing

end Usage

/-! ## The operations -/

variable {queue after : Queue} {link link' : Link}

/-- If the command is carried out, a job that can be written is added. -/
theorem enqueueAs_carried {id data : Value} {attempts : Int} {text : String}
    (written : Broker.payload id data attempts = .ok text) (sent : link.send = (true, link')) :
    queue.enqueueAs link id data attempts = (.ok (), queue.push text, link') := by
  simp only [enqueueAs, written, sendPush, sent]

theorem enqueue_carried {ids ids' : Ids} {id own data : Value} {attempts : Int} {text : String}
    (identified : jobId ids id data = (.ok own, ids'))
    (written : Broker.payload own data attempts = .ok text) (sent : link.send = (true, link')) :
    queue.enqueue link ids id data attempts = (.ok own, queue.push text, link', ids') := by
  simp only [enqueue, identified, enqueueAs_carried written sent]
  rfl

/-- If the command is carried out, the job that has waited longest is taken. -/
theorem reserve_carried {job : Broker.Job} {text : String} {rest : List String}
    (waiting : queue.waiting = text :: rest)
    (read : Broker.Job.ofPayload text = .ok (some job)) (sent : link.send = (true, link')) :
    queue.reserve link = (.ok (.job job), { queue with
      waiting := rest, processing := queue.processing ++ [text] }, link') := by
  simp only [reserve, sent, waiting, Broker.payload?_ofPayload, openPayload, read]

/-- A job is added to the queue, or this is left as it was. -/
theorem enqueueAs_over {id data : Value} {attempts : Int} {result : Except QueueError Unit}
    (done : queue.enqueueAs link id data attempts = (result, after, link')) :
    (∃ text, Broker.payload id data attempts = .ok text ∧ result = .ok () ∧
        after = queue.push text) ∨
      (∃ error, result = .error error) ∧ after = queue := by
  unfold enqueueAs at done
  split at done
  · cases done
    exact .inr ⟨⟨_, rfl⟩, rfl⟩
  · rename_i text written
    unfold sendPush at done
    rcases sent : link.send with ⟨_ | _, next⟩
    · simp only [sent] at done
      cases done
      exact .inr ⟨⟨_, rfl⟩, rfl⟩
    · simp only [sent] at done
      cases done
      exact .inl ⟨text, written, rfl, rfl⟩

theorem enqueue_cases {ids ids' : Ids} {id data : Value} {attempts : Int}
    {result : Except QueueError Value}
    (done : queue.enqueue link ids id data attempts = (result, after, link', ids')) :
    (∃ own text, result = .ok own ∧ Broker.payload own data attempts = .ok text ∧
        after = queue.push text) ∨
      (∃ error, result = .error error) ∧ after = queue := by
  rw [enqueue] at done
  split at done
  · cases done
    exact .inr ⟨⟨_, rfl⟩, rfl⟩
  · rename_i own _ _
    rcases added : queue.enqueueAs link own data attempts with ⟨outcome, behind, later⟩
    simp only [added] at done
    cases done
    obtain ⟨text, written, rfl, rfl⟩ | ⟨⟨error, rfl⟩, rfl⟩ := enqueueAs_over added
    · exact .inl ⟨own, text, rfl, written, rfl⟩
    · exact .inr ⟨⟨error, rfl⟩, rfl⟩

/-- A reservation moves the payload that has waited longest, and returns its job; if it does not,
nothing has changed. -/
theorem reserve_cases {result : Except QueueError Reserved}
    (written : ∀ text ∈ queue.waiting, ∃ id data attempts,
      Broker.payload id data attempts = .ok text)
    (done : queue.reserve link = (result, after, link')) :
    (∃ job rest, queue.waiting = job.payload :: rest ∧ result = .ok (.job job) ∧
        after = { queue with waiting := rest, processing := queue.processing ++ [job.payload] }) ∨
      (∀ job, result ≠ .ok (.job job)) ∧ after = queue := by
  rcases sent : link.send with ⟨_ | _, next⟩
  · simp only [reserve, sent] at done
    cases done
    exact .inr ⟨nofun, rfl⟩
  · cases waiting : queue.waiting with
    | nil =>
        simp only [reserve, sent, waiting] at done
        cases done
        exact .inr ⟨nofun, rfl⟩
    | cons text rest =>
        obtain ⟨id, data, attempts, own⟩ := written text (waiting ▸ mem_cons_self)
        cases (reserve_carried waiting (Broker.ofPayload_payload own) sent).symm.trans done
        exact .inl ⟨⟨Json.reread id, Json.reread data, attempts, text⟩, rest, rfl, rfl, rfl⟩

/-- Who takes a job gets what its payload says. -/
theorem reserve_read {job opened : Broker.Job} {text : String} {rest : List String}
    (waiting : queue.waiting = text :: rest)
    (read : Broker.Job.ofPayload text = .ok (some opened))
    (taken : queue.reserve link = (.ok (.job job), after, link')) : job = opened := by
  rcases sent : link.send with ⟨_ | _, next⟩
  · simp only [reserve, sent] at taken
    cases taken
  · cases (reserve_carried waiting read sent).symm.trans taken
    rfl

theorem ack_cases {job : Broker.Job} {result : Except QueueError Unit}
    (done : queue.ack link job = (result, after, link')) :
    (link.send.1 = true ∧ result = .ok () ∧ after = queue.release job.payload) ∨
      link.send.1 = false ∧ (∃ error, result = .error error) ∧ after = queue := by
  rw [ack, sendRelease] at done
  rcases sent : link.send with ⟨_ | _, next⟩
  · simp only [sent] at done
    cases done
    exact .inr ⟨rfl, ⟨_, rfl⟩, rfl⟩
  · simp only [sent] at done
    cases done
    exact .inl ⟨rfl, rfl, rfl⟩

/-- A retry does nothing, gives the job up, puts it back, or mislays it. -/
theorem retry_cases {job : Broker.Job} {result : Except QueueError Bool}
    (done : queue.retry link job = (result, after, link')) :
    ((∃ error, result = .error error) ∧ after = queue ∧ queue.mislays link job = false) ∨
      (result = .ok false ∧ after = queue.release job.payload ∧
        queue.mislays link job = false) ∨
      (∃ text, Broker.payload job.id job.data (job.attempts + 1) = .ok text ∧ result = .ok true ∧
        after = (queue.release job.payload).push text ∧ queue.mislays link job = false) ∨
      ((∃ error, result = .error error) ∧ after = queue.release job.payload ∧
        queue.mislays link job = true) := by
  rw [retry, ack, sendRelease] at done
  rcases sent : link.send with ⟨_ | _, next⟩
  · simp only [sent] at done
    cases done
    exact .inl ⟨⟨_, rfl⟩, rfl, by simp [mislays, sent]⟩
  simp only [sent, release] at done
  by_cases last : queue.maxAttempts ≤ job.attempts + 1
  · simp only [if_pos last] at done
    cases done
    exact .inr (.inl ⟨rfl, rfl, by simp [mislays, Int.not_lt.2 last]⟩)
  simp only [if_neg last] at done
  cases written : Broker.payload job.id job.data (job.attempts + 1) with
  | error fault =>
      simp only [written] at done
      cases done
      exact .inr (.inr (.inr ⟨⟨_, rfl⟩, rfl, by simp [mislays, sent, Int.not_le.1 last, written]⟩))
  | ok text =>
      simp only [written, sendPush] at done
      rcases again : next.send with ⟨_ | _, behind⟩
      · simp only [again] at done
        cases done
        exact .inr (.inr (.inr ⟨⟨_, rfl⟩, rfl,
          by simp [mislays, sent, Int.not_le.1 last, written, again]⟩))
      · simp only [again] at done
        cases done
        exact .inr (.inr (.inl ⟨text, rfl, rfl, rfl, by simp [mislays, sent, written, again]⟩))

/-- Putting back moves payloads from one list to the other. -/
theorem putBack_perm (texts : List String) (moved : Nat) (queue : Queue) (link : Link)
    (all : queue.processing = texts) :
    (putBack moved texts queue link).2.1.contents ~ queue.contents := by
  induction texts generalizing moved queue link with
  | nil =>
      rw [putBack]
      split <;> exact .refl _
  | cons text rest ih =>
      rw [putBack]
      split
      · refine (ih _ _ _ rfl).trans ?_
        simp only [contents, all, append_assoc, singleton_append]
        exact .refl _
      · exact .refl _

/-! ## The book -/

theorem mem_book_of_mem_owed {book : List Entry} {text : String} (member : text ∈ owed book) :
    ⟨text, .owed⟩ ∈ book := by
  obtain ⟨⟨payload, fate⟩, kept, rfl⟩ := mem_map.1 member
  obtain ⟨inBook, same⟩ := mem_filter.1 kept
  rw [← of_decide_eq_true same]
  exact inBook

theorem owed_cons (entry : Entry) (book : List Entry) :
    owed (entry :: book) = owed [entry] ++ owed book := by
  by_cases isOwed : entry.fate = .owed <;> simp [owed, isOwed]

/-- What is owed once an entry has been replaced. -/
theorem owed_enter {book : List Entry} {text : String} {rest : List String} (after : Entry)
    (before : owed book ~ text :: rest) :
    owed (Usage.enter book text after) ~ owed [after] ++ rest := by
  have member : (⟨text, .owed⟩ : Entry) ∈ book :=
    mem_book_of_mem_owed (before.mem_iff.2 mem_cons_self)
  induction book generalizing rest with
  | nil => cases member
  | cons entry book ih =>
      by_cases found : entry = ⟨text, .owed⟩
      · subst found
        have replaced : Usage.enter (⟨text, .owed⟩ :: book) text after = after :: book := by
          simp [Usage.enter]
        have others : owed book ~ rest := by
          rw [owed_cons] at before
          exact before.cons_inv
        rw [replaced, owed_cons]
        exact others.append_left _
      · have kept : Usage.enter (entry :: book) text after =
            entry :: Usage.enter book text after := by
          have other : ((⟨text, .owed⟩ : Entry) == entry) = false :=
            beq_eq_false_iff_ne.2 (Ne.symm found)
          simp only [Usage.enter, replace_cons, other]
        have inBook := mem_of_ne_of_mem (Ne.symm found) member
        have extracted : owed book ~ text :: (owed book).erase text :=
          perm_cons_erase (mem_map.2 ⟨_, mem_filter.2 ⟨inBook, rfl⟩, rfl⟩)
        have others : owed [entry] ++ (owed book).erase text ~ rest := by
          have whole := (extracted.append_left (owed [entry])).symm.trans
            ((owed_cons entry book).symm ▸ before)
          exact (perm_middle.symm.trans whole).cons_inv
        rw [kept, owed_cons]
        calc owed [entry] ++ owed (Usage.enter book text after)
            ~ owed [entry] ++ (owed [after] ++ (owed book).erase text) :=
              (ih extracted inBook).append_left _
          _ ~ owed [after] ++ (owed [entry] ++ (owed book).erase text) := by
              simp only [← append_assoc]
              exact perm_append_comm.append_right _
          _ ~ owed [after] ++ rest := others.append_left _

/-! ## Every step keeps the account -/

theorem contents_push (queue : Queue) (text : String) :
    (queue.push text).contents ~ text :: queue.contents := by
  simp only [contents, push, append_assoc, singleton_append]
  exact perm_middle

theorem contents_release {queue : Queue} {text : String} (member : text ∈ queue.processing) :
    queue.contents ~ text :: (queue.release text).contents :=
  ((perm_cons_erase member).append_left _).trans perm_middle

namespace Usage.Sound

variable {u : Usage} {lost : List String} {link : Link}

theorem start (name : String) (maxAttempts : Int) (asOctets : Bool) :
    Sound (.start name maxAttempts asOctets) [] :=
  ⟨.refl _, nofun, nofun⟩

theorem abandon (sound : Sound u lost) : Sound { u with held := none } lost :=
  ⟨sound.accounted, sound.written, nofun⟩

theorem enqueue (sound : Sound u lost) (ids : Ids) (id data : Value) (attempts : Int) :
    Sound (u.enqueue link ids id data attempts) lost := by
  rw [Usage.enqueue]
  rcases done : u.queue.enqueue link ids id data attempts with ⟨result, after, link', ids'⟩
  obtain ⟨own, text, rfl, written, rfl⟩ | ⟨⟨error, rfl⟩, rfl⟩ := enqueue_cases done
  · simp only [written]
    have pushed := contents_push u.queue text
    refine ⟨?_, fun other member => ?_, sound.handled⟩
    · have added : owed (u.book ++ [⟨text, .owed⟩]) = owed u.book ++ [text] := by simp [owed]
      rw [added]
      calc owed u.book ++ [text]
          ~ text :: owed u.book := perm_append_comm
        _ ~ text :: (u.queue.contents ++ lost) := sound.accounted.cons _
        _ ~ (u.queue.push text).contents ++ lost := (pushed.append_right lost).symm
    · rcases mem_cons.1 (pushed.mem_iff.1 member) with rfl | earlier
      · exact ⟨_, _, _, written⟩
      · exact sound.written other earlier
  · exact sound

theorem reserve (sound : Sound u lost) : Sound (u.reserve link) lost := by
  rw [Usage.reserve]
  rcases done : u.queue.reserve link with ⟨result, after, link'⟩
  obtain ⟨job, rest, waiting, rfl, rfl⟩ | ⟨none, rfl⟩ :=
    reserve_cases (fun text member => sound.written text (mem_append_left _ member)) done
  · have same : rest ++ (u.queue.processing ++ [job.payload]) ~ u.queue.contents := by
      rw [contents, waiting, ← append_assoc]
      exact perm_append_comm
    refine ⟨?_, fun text member => ?_, fun other held => ?_⟩
    · exact sound.accounted.trans (same.symm.append_right lost)
    · exact sound.written text (same.mem_iff.1 member)
    · cases held
      exact mem_append_right _ mem_cons_self
  · cases result with
    | error error => exact sound.abandon
    | ok reserved =>
        cases reserved with
        | job job => exact absurd rfl (none job)
        | nothing => exact sound.abandon
        | dropped => exact sound.abandon

/-- The job that is being handled leaves the queue, for good or in a new form. -/
theorem finish (sound : Sound u lost) {job : Broker.Job} (held : u.held = some job) :
    owed u.book ~ job.payload :: ((u.queue.release job.payload).contents ++ lost) ∧
      ∀ text ∈ (u.queue.release job.payload).contents, ∃ id data attempts,
        Broker.payload id data attempts = .ok text := by
  have released := contents_release (sound.handled job held)
  exact ⟨sound.accounted.trans (released.append_right lost), fun text member =>
    sound.written text (released.mem_iff.2 (mem_cons_of_mem _ member))⟩

theorem ack (sound : Sound u lost) {job : Broker.Job} (held : u.held = some job) :
    Sound (u.ack link job) lost := by
  rw [Usage.ack]
  rcases done : u.queue.ack link job with ⟨result, after, link'⟩
  obtain ⟨-, rfl, rfl⟩ | ⟨-, ⟨error, rfl⟩, rfl⟩ := ack_cases done
  · obtain ⟨accounted, written⟩ := sound.finish held
    exact ⟨owed_enter _ accounted, written, nofun⟩
  · exact sound.abandon

/-- A retry keeps the account if the job counts as lost in case it is mislaid. -/
theorem retry (sound : Sound u lost) {job : Broker.Job} (held : u.held = some job) :
    Sound (u.retry link job)
      (lost ++ if u.queue.mislays link job then [job.payload] else []) := by
  rw [Usage.retry]
  obtain ⟨accounted, written⟩ := sound.finish held
  rcases done : u.queue.retry link job with ⟨result, after, link'⟩
  obtain ⟨⟨error, rfl⟩, rfl, kept⟩ | ⟨rfl, rfl, kept⟩ | ⟨text, own, rfl, rfl, kept⟩ |
    ⟨⟨error, rfl⟩, rfl, gone⟩ := retry_cases done
  · simpa [kept] using sound.abandon
  · have settled := owed_enter ⟨job.payload, .exhausted⟩ accounted
    exact ⟨by simpa [kept, owed] using settled, written, nofun⟩
  · have pushed := contents_push (u.queue.release job.payload) text
    have settled := owed_enter ⟨text, .owed⟩ accounted
    simp only [own, kept]
    refine ⟨?_, fun other member => ?_, nofun⟩
    · rw [if_neg (by decide), append_nil]
      exact settled.trans (pushed.append_right lost).symm
    · rcases mem_cons.1 (pushed.mem_iff.1 member) with rfl | earlier
      · exact ⟨_, _, _, own⟩
      · exact written other earlier
  · simp only [gone, if_true]
    refine ⟨accounted.trans ?_, written, nofun⟩
    rw [← append_assoc]
    exact (perm_append_singleton _ _).symm

theorem requeueStale (sound : Sound u lost) (idle : u.held = none) :
    Sound { u with queue := (u.queue.requeueStale link).2.1 } lost := by
  have same := putBack_perm u.queue.processing 0 u.queue link rfl
  refine ⟨sound.accounted.trans (same.symm.append_right lost), fun text member => ?_,
    fun job held => ?_⟩
  · exact sound.written text (same.mem_iff.1 member)
  · rw [idle] at held
    cases held

/-- **One step.**  Whatever is done, and whichever of its commands are lost, the jobs that are owed
afterwards are those on the queue and those that were mislaid. -/
theorem step (sound : Sound u lost) (link : Link) (act : Act) :
    Sound (u.step link act) (lost ++ u.mislaidBy link act) := by
  cases act with
  | enqueue ids id data attempts =>
      simp only [mislaidBy, append_nil]
      exact sound.enqueue ids id data attempts
  | reserve =>
      simp only [mislaidBy, append_nil]
      exact sound.reserve
  | ack =>
      simp only [mislaidBy, append_nil, Usage.step]
      cases held : u.held with
      | none => exact sound
      | some job => exact sound.ack held
  | retry =>
      rw [mislaidBy, Usage.step]
      cases held : u.held with
      | none => simpa using sound
      | some job => exact sound.retry held
  | requeueStale =>
      simp only [mislaidBy, append_nil, Usage.step]
      split
      · exact sound.requeueStale (Option.isNone_iff_eq_none.1 ‹_›)
      · exact sound
  | abandon =>
      simp only [mislaidBy, append_nil]
      exact sound.abandon

/-- Any number of steps. -/
theorem run (sound : Sound u lost) (acts : List (Act × Link)) :
    Sound (u.run acts) (lost ++ u.mislaid acts) := by
  induction acts generalizing u lost with
  | nil => simpa [Usage.run, mislaid] using sound
  | cons act rest ih =>
      obtain ⟨act, link⟩ := act
      have rested := ih (sound.step link act)
      rw [append_assoc] at rested
      exact rested

end Usage.Sound

/-- **No job is lost or doubled, but for those that a retry mislays.**  After any acts of a consumer
on a queue that was empty, with any commands lost, the jobs that are owed, those that were enqueued
and are neither acknowledged nor out of attempts, are on the two lists of the queue, each once, if
and only if no retry removed its job without giving it up or putting it back. -/
theorem jobs_owed_iff (name : String) (maxAttempts : Int) (asOctets : Bool)
    (acts : List (Act × Link)) :
    let start := Usage.start name maxAttempts asOctets
    let after := start.run acts
    (owed after.book ~ after.queue.waiting ++ after.queue.processing ↔ start.mislaid acts = []) ∧
      owed after.book ~ after.queue.waiting ++ after.queue.processing ++ start.mislaid acts := by
  intro start after
  have accounted : owed after.book ~ after.queue.contents ++ start.mislaid acts :=
    ((Usage.Sound.start name maxAttempts asOctets).run acts).accounted
  refine ⟨⟨fun all => ?_, fun none => ?_⟩, accounted⟩
  · have same := (all.symm.trans accounted).length_eq
    simp only [contents, length_append] at same
    exact length_eq_zero_iff.1 (by omega)
  · rw [none, append_nil] at accounted
    exact accounted

/-- A job is enqueued and reserved; its retry removes it, and the command that would add it again is
lost.  The job is owed, and the queue is empty. -/
theorem retry_mislays_job :
    let start := Usage.start "notifications" 3 false
    let after := start.run [(.enqueue ⟨"job", 0⟩ (.text "a") (.map []) 0, .sound),
      (.reserve, .sound), (.retry, .outage 1 (some 1))]
    ¬ owed after.book ~ after.queue.waiting ++ after.queue.processing := by
  decide +kernel

end LogAlert.Queue
