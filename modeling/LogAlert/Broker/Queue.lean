/-
# LogAlert.Broker.Queue -- job queues

A queue is two lists of payloads: those that wait, and those that are being processed. A job that is
reserved moves from the head of the first list to the end of the second, and leaves it when it is
acknowledged. What is left on the second list belongs to somebody who died over it;
`Queue.requeueStale` puts it back behind the waiting jobs. Each operation is a sequence of commands,
and stops at the first one that is lost.
-/
import LogAlert.Broker.Envelope
import LogAlert.Broker.Link
import LogAlert.Ids

set_option autoImplicit false

namespace LogAlert

/-- A queue of jobs. -/
structure Queue where
  name : String
  /-- How often a job is attempted. -/
  maxAttempts : Int
  /-- Reserved payloads are answered as octets. -/
  asOctets : Bool
  waiting : List String
  processing : List String
deriving DecidableEq, Repr, Inhabited

/-- Why an operation on a queue fails. -/
inductive QueueError where
  /-- A command was lost. -/
  | down
  /-- The command that adds a job to the queue of this name was lost. -/
  | undelivered (queue : String)
  /-- The job itself is faulty. -/
  | fault (fault : Fault)
deriving DecidableEq, Repr

/-- The message for a failed operation on a queue. -/
def QueueError.message : QueueError → String
  | .down => Link.lossMessage
  | .undelivered queue => "Failed to enqueue job on " ++ queue ++ ": " ++ Link.lossMessage
  | .fault cause => cause.message

namespace Queue

/-- A queue without jobs. -/
def empty (name : String) (maxAttempts : Int) (asOctets : Bool) : Queue :=
  ⟨name, maxAttempts, asOctets, [], []⟩

/-- The identifier of a job: the given one, else the one in its data, else a new one. -/
def jobId (ids : Ids) (id data : Value) : Except Fault Value × Ids :=
  if id.truthy then (.ok id, ids)
  else
    match data.getOf "job_id" with
    | .error fault => (.error fault, ids)
    | .ok own =>
      if own.truthy then (.ok own, ids)
      else
        let (name, ids) := ids.fresh
        (.ok (.text name), ids)

/-- Add a payload behind all that wait. -/
def push (queue : Queue) (payload : String) : Queue :=
  { queue with waiting := queue.waiting ++ [payload] }

/-- Send the command that adds a payload; the result says whether it was carried out. -/
def sendPush (queue : Queue) (link : Link) (payload : String) : Bool × Queue × Link :=
  match link.send with
  | (true, link) => (true, queue.push payload, link)
  | (false, link) => (false, queue, link)

/-- Add a job whose identifier is known. -/
def enqueueAs (queue : Queue) (link : Link) (id data : Value) (attempts : Int) :
    Except QueueError Unit × Queue × Link :=
  match Broker.payload id data attempts with
  | .error fault => (.error (.fault fault), queue, link)
  | .ok payload =>
    match queue.sendPush link payload with
    | (true, queue, link) => (.ok (), queue, link)
    | (false, queue, link) => (.error (.undelivered queue.name), queue, link)

/-- Add a job; the result is its identifier. -/
def enqueue (queue : Queue) (link : Link) (ids : Ids) (id data : Value) (attempts : Int) :
    Except QueueError Value × Queue × Link × Ids :=
  match jobId ids id data with
  | (.error fault, ids) => (.error (.fault fault), queue, link, ids)
  | (.ok id, ids) =>
    let (result, queue, link) := queue.enqueueAs link id data attempts
    (result.map fun _ => id, queue, link, ids)

/-- What a reservation yields. -/
inductive Reserved where
  /-- Nothing waits. -/
  | nothing
  /-- The next payload was malformed and is gone. -/
  | dropped
  | job (job : Broker.Job)

/-- The job that was reserved. -/
def Reserved.job? : Reserved → Option Broker.Job
  | .job taken => some taken
  | _ => none

/-- Remove the first equal payload from those being processed. -/
def release (queue : Queue) (payload : String) : Queue :=
  { queue with processing := queue.processing.erase payload }

/-- Send the command that removes a payload from those being processed. -/
def sendRelease (queue : Queue) (link : Link) (payload : String) :
    Except QueueError Unit × Queue × Link :=
  match link.send with
  | (true, link) => (.ok (), queue.release payload, link)
  | (false, link) => (.error .down, queue, link)

/-- Read a payload that has just been moved to those being processed. -/
def openPayload (queue : Queue) (link : Link) (payload : String) :
    Except QueueError Reserved × Queue × Link :=
  match Broker.Job.ofPayload payload with
  | .error fault => (.error (.fault fault), queue, link)
  | .ok (some job) => (.ok (.job job), queue, link)
  | .ok none =>
    let (result, queue, link) := queue.sendRelease link payload
    (result.map fun _ => .dropped, queue, link)

/-- Take the job that has waited longest. -/
def reserve (queue : Queue) (link : Link) : Except QueueError Reserved × Queue × Link :=
  match link.send with
  | (false, link) => (.error .down, queue, link)
  | (true, link) =>
    match queue.waiting with
    | [] => (.ok .nothing, queue, link)
    | payload :: rest =>
      let queue := { queue with waiting := rest, processing := queue.processing ++ [payload] }
      match (Broker.Answer.ofPayload queue.asOctets payload).payload? with
      | none => (.ok .dropped, queue, link)
      | some payload => queue.openPayload link payload

/-- The job is done. -/
def ack (queue : Queue) (link : Link) (job : Broker.Job) : Except QueueError Unit × Queue × Link :=
  queue.sendRelease link job.payload

/-- The job has failed: put it back unless it has used up all attempts. The result says whether it
was put back. -/
def retry (queue : Queue) (link : Link) (job : Broker.Job) :
    Except QueueError Bool × Queue × Link :=
  match queue.ack link job with
  | (.error error, queue, link) => (.error error, queue, link)
  | (.ok (), queue, link) =>
    if queue.maxAttempts ≤ job.attempts + 1 then (.ok false, queue, link)
    else
      match Broker.payload job.id job.data (job.attempts + 1) with
      | .error fault => (.error (.fault fault), queue, link)
      | .ok payload =>
        match queue.sendPush link payload with
        | (true, queue, link) => (.ok true, queue, link)
        | (false, queue, link) => (.error .down, queue, link)

/-- Move payloads, given in their order, from those being processed to those that wait. One more
command finds that there are none left. -/
def putBack (moved : Nat) : List String → Queue → Link → Except QueueError Nat × Queue × Link
  | [], queue, link =>
    match link.send with
    | (true, link) => (.ok moved, queue, link)
    | (false, link) => (.error .down, queue, link)
  | payload :: rest, queue, link =>
    match link.send with
    | (true, link) =>
      putBack (moved + 1) rest
        { queue with waiting := queue.waiting ++ [payload], processing := rest } link
    | (false, link) => (.error .down, queue, link)

/-- Put back all jobs that are being processed; the result is their number. -/
def requeueStale (queue : Queue) (link : Link) : Except QueueError Nat × Queue × Link :=
  putBack 0 queue.processing queue link

/-- The number of waiting jobs. -/
def size (queue : Queue) (link : Link) : Except QueueError Nat × Link :=
  match link.send with
  | (true, link) => (.ok queue.waiting.length, link)
  | (false, link) => (.error .down, link)

end Queue

end LogAlert
