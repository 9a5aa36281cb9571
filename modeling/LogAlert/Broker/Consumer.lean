/-
# LogAlert.Broker.Consumer -- handling the jobs of a queue

A consumer first puts back what others have left, then reserves and handles one job after the other.
A job whose handling fails is retried, any other is acknowledged. The consumer goes on when a
reservation is lost, and stops when nothing waits. Handling changes a state of its own and may send
commands, but leaves the consumer's queue alone.
-/
import LogAlert.Broker.Queue

set_option autoImplicit false

namespace LogAlert.Queue

/-- How often a waiting payload can be handled at most. -/
def handlings (queue : Queue) (payload : String) : Nat :=
  match Broker.Job.ofPayload payload with
  | .ok (some job) => max 1 (queue.maxAttempts - job.attempts).toNat
  | _ => 1

/-- More than the number of reservations that the content of a queue can lead to. -/
def workload (queue : Queue) (link : Link) : Nat :=
  (queue.waiting ++ queue.processing).foldr (fun payload total => queue.handlings payload + total)
    (link.upcoming.length + 1)

variable {σ : Type}

/-- Finish a job that was handled, successfully or not. -/
def conclude (queue : Queue) (link : Link) (job : Broker.Job) (handled : Bool) :
    Except QueueError Unit × Queue × Link :=
  if handled then queue.ack link job
  else
    let (result, queue, link) := queue.retry link job
    (result.map fun _ => (), queue, link)

/-- Reserve and handle jobs until nothing waits, at most so many times. -/
def handleAll (handle : Broker.Job → Link → σ → Bool × Link × σ) :
    Nat → Queue → Link → σ → Except QueueError Unit × Queue × Link × σ
  | 0, queue, link, state => (.ok (), queue, link, state)
  | fuel + 1, queue, link, state =>
    match queue.reserve link with
    | (.error .down, queue, link) => handleAll handle fuel queue link state
    | (.error error, queue, link) => (.error error, queue, link, state)
    | (.ok .nothing, queue, link) => (.ok (), queue, link, state)
    | (.ok .dropped, queue, link) => handleAll handle fuel queue link state
    | (.ok (.job job), queue, link) =>
      let (handled, link, state) := handle job link state
      match queue.conclude link job handled with
      | (.error error, queue, link) => (.error error, queue, link, state)
      | (.ok (), queue, link) => handleAll handle fuel queue link state

/-- Handle all jobs of a queue. -/
def consume (handle : Broker.Job → Link → σ → Bool × Link × σ) (queue : Queue) (link : Link)
    (state : σ) : Except QueueError Unit × Queue × Link × σ :=
  match queue.requeueStale link with
  | (.error error, queue, link) => (.error error, queue, link, state)
  | (.ok _, queue, link) => handleAll handle (queue.workload link) queue link state

end LogAlert.Queue
