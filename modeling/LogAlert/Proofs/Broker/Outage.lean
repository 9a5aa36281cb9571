/-
# LogAlert.Proofs.Broker.Outage -- which lost commands end a consumer

A consumer takes one turn after the other: it reserves a job, handles it, and finishes it (`turn`).
Before each turn it asks whether it is to stop, and `work` is its work under given answers.  The
consumer of a queue, which stops when it finds that nothing waits, works under some such answers
(`handleAll_eq_work`).

Commands can be lost at any place of a turn.  If it is that of a reservation, or the one that drops a
malformed payload, or a command that the handler sends, the consumer goes on with its next turn.  But
the commands that finish a job are sent without any precaution: the one of an acknowledgement, and
the two of a retry.

Main statement: a lost command ends the work of a consumer if and only if it is one of these
(`work_down_iff`).  `lost_ack_ends_consumer` shows a consumer that ends in this way.
-/
import LogAlert.Broker.Consumer
import LogAlert.Proofs.Broker.Accounting

set_option autoImplicit false

namespace LogAlert.Queue

variable {σ : Type} {handle : Broker.Job → Link → σ → Bool × Link × σ}
variable {queue after : Queue} {link link' : Link} {state : σ} {job : Broker.Job} {handled : Bool}

/-- One turn of a consumer: reserve a job, handle it, and finish it.  The turn is over early if there
is no job to be had. -/
def turn (handle : Broker.Job → Link → σ → Bool × Link × σ) (queue : Queue) (link : Link)
    (state : σ) : Except QueueError Unit × Queue × Link × σ :=
  match queue.reserve link with
  | (.error .down, queue, link) => (.ok (), queue, link, state)
  | (.error error, queue, link) => (.error error, queue, link, state)
  | (.ok (.job job), queue, link) =>
    let (handled, link, state) := handle job link state
    let (result, queue, link) := queue.conclude link job handled
    (result, queue, link, state)
  | (.ok _, queue, link) => (.ok (), queue, link, state)

/-- The work of a consumer that asks before each turn whether it is to stop, and gets these answers.
There is no result if it is still at work after the last of them. -/
def work (handle : Broker.Job → Link → σ → Bool × Link × σ) :
    List Bool → Queue → Link → σ → Option (Except QueueError Unit × Queue × Link × σ)
  | [], _, _, _ => none
  | true :: _, queue, link, state => some (.ok (), queue, link, state)
  | false :: answers, queue, link, state =>
    match turn handle queue link state with
    | (.ok (), queue, link, state) => work handle answers queue link state
    | (.error error, queue, link, state) => some (.error error, queue, link, state)

/-- One of the commands that finish a job is lost: the first one, which removes it, or the second one
of a retry, which puts it back. -/
def FinishLost (queue : Queue) (link : Link) (job : Broker.Job) (handled : Bool) : Prop :=
  link.send.1 = false ∨
    handled = false ∧ job.attempts + 1 < queue.maxAttempts ∧
      (∃ text, Broker.payload job.id job.data (job.attempts + 1) = .ok text) ∧
      link.send.2.send.1 = false

/-- While the consumer is at work, one of the commands that finish a job is lost. -/
inductive LosesFinish (handle : Broker.Job → Link → σ → Bool × Link × σ) :
    List Bool → Queue → Link → σ → Prop where
  | now {answers : List Bool} {queue after : Queue} {link link' : Link} {state : σ}
      {job : Broker.Job} (reserved : queue.reserve link = (.ok (.job job), after, link'))
      (lost : after.FinishLost (handle job link' state).2.1 job (handle job link' state).1) :
    LosesFinish handle (false :: answers) queue link state
  | later {answers : List Bool} {queue after : Queue} {link link' : Link} {state state' : σ}
      (goesOn : turn handle queue link state = (.ok (), after, link', state'))
      (later : LosesFinish handle answers after link' state') :
    LosesFinish handle (false :: answers) queue link state

/-! ## Finishing a job -/

theorem ack_down_iff : (queue.ack link job).1 = .error .down ↔ link.send.1 = false := by
  rw [ack, sendRelease]
  rcases link.send with ⟨_ | _, _⟩ <;> simp

theorem retry_down_iff : (queue.retry link job).1 = .error .down ↔
    link.send.1 = false ∨ job.attempts + 1 < queue.maxAttempts ∧
      (∃ text, Broker.payload job.id job.data (job.attempts + 1) = .ok text) ∧
      link.send.2.send.1 = false := by
  rw [retry, ack, sendRelease]
  rcases link.send with ⟨_ | _, next⟩
  · simp
  by_cases last : queue.maxAttempts ≤ job.attempts + 1
  · simp [release, last, Int.not_lt.2 last]
  have again := Int.not_le.1 last
  cases Broker.payload job.id job.data (job.attempts + 1) with
  | error fault => simp [release, last]
  | ok text =>
      rcases sent : next.send with ⟨_ | _, _⟩ <;> simp [release, last, again, sendPush, sent]

theorem conclude_down_iff :
    (queue.conclude link job handled).1 = .error .down ↔ queue.FinishLost link job handled := by
  unfold conclude FinishLost
  cases handled with
  | true => simp [ack_down_iff]
  | false =>
      have same : (queue.retry link job).1 = .error .down ↔ _ := retry_down_iff
      simp only [Bool.false_eq_true, if_false, true_and, ← same]
      cases (queue.retry link job).1 <;> simp [Except.map]

/-! ## Turns -/

/-- A turn is cut short by a lost command exactly if the command was to finish a job. -/
theorem turn_down_iff : (turn handle queue link state).1 = .error .down ↔
    ∃ job after link', queue.reserve link = (.ok (.job job), after, link') ∧
      after.FinishLost (handle job link' state).2.1 job (handle job link' state).1 := by
  unfold turn
  rcases queue.reserve link with ⟨error | reserved, after, link'⟩
  · cases error <;> simp
  · cases reserved with
    | nothing | dropped => simp
    | job job =>
        refine conclude_down_iff.trans ⟨fun lost => ⟨job, after, link', rfl, lost⟩, ?_⟩
        rintro ⟨_, _, _, same, lost⟩
        cases same
        exact lost

/-! ## Work -/

/-- **Which lost commands end the work of a consumer.** -/
theorem work_down (answers : List Bool) (queue : Queue) (link : Link) (state : σ) :
    (∃ left, work handle answers queue link state = some (.error .down, left)) ↔
      LosesFinish handle answers queue link state := by
  induction answers generalizing queue link state with
  | nil => exact ⟨nofun, nofun⟩
  | cons answer answers ih =>
      cases answer with
      | true => exact ⟨nofun, nofun⟩
      | false =>
          rcases result : turn handle queue link state with ⟨error | _, after, link', state'⟩
          · have ends : (∃ left, work handle (false :: answers) queue link state =
                some (.error .down, left)) ↔ (turn handle queue link state).1 = .error .down := by
              simp [work, result]
            rw [ends, turn_down_iff]
            constructor
            · rintro ⟨job, after, link', reserved, lost⟩
              exact .now reserved lost
            · rintro (⟨reserved, lost⟩ | ⟨goesOn, -⟩)
              · exact ⟨_, _, _, reserved, lost⟩
              · cases result.symm.trans goesOn
          · have goesOn : (turn handle queue link state).1 ≠ .error .down := by
              rw [result]
              nofun
            have same : work handle (false :: answers) queue link state =
                work handle answers after link' state' := by
              simp only [work, result]
            rw [same, ih]
            refine ⟨.later result, ?_⟩
            rintro (⟨reserved, lost⟩ | ⟨result', later⟩)
            · exact absurd (turn_down_iff.2 ⟨_, _, _, reserved, lost⟩) goesOn
            · cases result.symm.trans result'
              exact later

/-- A consumer returns only after it was told to stop. -/
theorem stopped_of_work {answers : List Bool} {left : Queue × Link × σ}
    (returned : work handle answers queue link state = some (.ok (), left)) : true ∈ answers := by
  induction answers generalizing queue link state with
  | nil => cases returned
  | cons answer answers ih =>
      cases answer with
      | true => exact List.mem_cons_self
      | false =>
          rw [work] at returned
          split at returned
          · exact List.mem_cons_of_mem _ (ih returned)
          · cases returned

/-- The consumer that stops when nothing waits, or after so many turns, works under some answers. -/
theorem handleAll_eq_work (handle : Broker.Job → Link → σ → Bool × Link × σ) (fuel : Nat)
    (queue : Queue) (link : Link) (state : σ) :
    ∃ answers, work handle answers queue link state =
      some (handleAll handle fuel queue link state) := by
  induction fuel generalizing queue link state with
  | zero => exact ⟨[true], rfl⟩
  | succ fuel ih =>
      rcases reserved : queue.reserve link with ⟨error | taken, after, link'⟩
      · cases error with
        | down =>
            obtain ⟨answers, works⟩ := ih after link' state
            refine ⟨false :: answers, ?_⟩
            simp only [work, turn, handleAll, reserved, works]
        | undelivered | fault =>
            exact ⟨[false], by simp only [work, turn, handleAll, reserved]⟩
      · cases taken with
        | nothing => exact ⟨[false, true], by simp only [work, turn, handleAll, reserved]⟩
        | dropped =>
            obtain ⟨answers, works⟩ := ih after link' state
            refine ⟨false :: answers, ?_⟩
            simp only [work, turn, handleAll, reserved, works]
        | job job =>
            rcases handled : handle job link' state with ⟨success, link'', state'⟩
            rcases finished : after.conclude link'' job success with ⟨error | _, last, behind⟩
            · refine ⟨[false], ?_⟩
              simp only [work, turn, handleAll, reserved, handled, finished]
            · obtain ⟨answers, works⟩ := ih last behind state'
              refine ⟨false :: answers, ?_⟩
              simp only [work, turn, handleAll, reserved, handled, finished, works]

/-- **A lost command ends a consumer exactly if it was to finish a job.**  Whatever is on the two
lists of the queue, whatever the handler does, and whichever commands are lost: the work of a
consumer ends with a lost command if and only if, while it is at work, a command is lost that
acknowledges a job or puts it back.  It returns only after it was told to stop.  The consumer of a
queue that has put back what others have left is one of these. -/
theorem work_down_iff (handle : Broker.Job → Link → σ → Bool × Link × σ) (answers : List Bool)
    (queue : Queue) (link : Link) (state : σ) :
    ((∃ left, work handle answers queue link state = some (.error .down, left)) ↔
        LosesFinish handle answers queue link state) ∧
      (∀ left, work handle answers queue link state = some (.ok (), left) → true ∈ answers) ∧
      ∀ moved after link', queue.requeueStale link = (.ok moved, after, link') →
        ∃ answers, work handle answers after link' state =
          some (queue.consume handle link state) := by
  refine ⟨work_down answers queue link state, fun left => stopped_of_work, ?_⟩
  intro moved after link' putBack
  obtain ⟨answers, works⟩ := handleAll_eq_work handle (after.workload link') after link' state
  refine ⟨answers, works.trans ?_⟩
  rw [consume, putBack]

/-- A queue with one job. -/
def oneJob : Queue :=
  { name := "notifications", maxAttempts := 3, asOctets := false
    waiting := ["\x7b\"id\": \"a\", \"attempts\": 0, \"data\": \x7b\x7d\x7d"], processing := [] }

/-- **A lost command can end a consumer**: that of the acknowledgement of a job that was handled. -/
theorem lost_ack_ends_consumer :
    ¬ ∀ (handle : Broker.Job → Link → Unit → Bool × Link × Unit) (queue after : Queue)
        (link link' : Link) (moved : Nat), queue.requeueStale link = (.ok moved, after, link') →
      (queue.consume handle link ()).1 ≠ .error .down := by
  intro goesOn
  have ended : (oneJob.consume (fun _ link _ => (true, link, ())) (.outage 2 (some 1)) ()).1 =
      .error .down := by decide +kernel
  exact goesOn _ oneJob oneJob (.outage 2 (some 1)) (.outage 1 (some 1)) 0 rfl ended

end LogAlert.Queue
