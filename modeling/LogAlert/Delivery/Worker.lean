/-
# LogAlert.Delivery.Worker -- delivering notifications

A worker sends each notification by mail and to a webhook, as far as it names recipients. The
channels do not depend on each other. The outcome is written into the history, and a delivery
without failure is recorded in the ledger; a notification that the ledger knows is skipped.

The clock goes on while a notification is delivered: `Worker.Times` says what it shows whenever it
is read.
-/
import LogAlert.Broker.Consumer
import LogAlert.Delivery.Email
import LogAlert.Delivery.Ledger
import LogAlert.Delivery.Webhook
import LogAlert.Store.Alerts

set_option autoImplicit false

namespace LogAlert

/-- How a worker delivers. -/
structure Worker where
  /-- Deliveries are looked up and recorded in the ledger. -/
  usesLedger : Bool
  mail : Delivery.MailSettings
  /-- How often a webhook is tried. -/
  maxAttempts : Int
  /-- The pause after the first failure. -/
  delay : Delivery.Delay
deriving Inhabited

/-- What a worker changes. -/
structure Worker.State where
  ids : Ids
  store : Store
  ledger : Ledger
  outside : Delivery.Outside

/-- What the clock shows in the course of a delivery. -/
structure Worker.Times where
  /-- The ledger is asked. -/
  asked : Time.Instant
  /-- The mail message is written. -/
  mailed : Time.Instant
  /-- The request to the webhook is written. -/
  posted : Time.Instant
  /-- The delivery is recorded in the ledger. -/
  recorded : Time.Instant
deriving DecidableEq, Repr, Inhabited

/-- A clock that stands still. -/
def Worker.Times.still (now : Time.Instant) : Worker.Times := ⟨now, now, now, now⟩

namespace Worker

/-- Send by mail if there are recipients. -/
def mailChannel (worker : Worker) (n : Notification) (now : Time.Instant)
    (outside : Delivery.Outside) : Except Fault (Option String) × Delivery.Outside :=
  if n.recipients.isEmpty then (.ok none, outside)
  else
    let (result, outside) := Delivery.sendMail worker.mail n now outside
    (result.map fun failure => failure.map ("Email failed: " ++ ·), outside)

/-- Send to the webhook if there is one. -/
def webhookChannel (worker : Worker) (n : Notification) (now : Time.Instant)
    (outside : Delivery.Outside) : Option String × Delivery.Outside :=
  if n.webhook.truthy then
    let (failure, outside) :=
      Delivery.post worker.maxAttempts worker.delay n.webhook (Delivery.payloadOf n now) outside
    (failure.map ("Webhook failed: " ++ ·), outside)
  else (none, outside)

/-- Send over both channels. The result tells which of them failed. -/
def send (worker : Worker) (n : Notification) (times : Times) (outside : Delivery.Outside) :
    Except Fault (Option String) × Delivery.Outside :=
  match worker.mailChannel n times.mailed outside with
  | (.error fault, outside) => (.error fault, outside)
  | (.ok mail, outside) =>
    let (webhook, outside) := worker.webhookChannel n times.posted outside
    let failures := mail.toList ++ webhook.toList
    (.ok (if failures.isEmpty then none else some (Value.joined "; " failures)), outside)

/-- Write the outcome into the row of the history that a value names. -/
def settle (store : Store) (history : Value) (failure : Option String) :
    Except StoreError Store :=
  if history.truthy then do
    match ← Store.columnText history with
    | some id => return (store.markNotified id failure).2
    | none => return store
  else return store

/-- The ledger knows the notification. -/
def isKnown (worker : Worker) (ledger : Ledger) (link : Link) (now : Time.Instant)
    (n : Notification) : Bool × Ledger × Link :=
  if worker.usesLedger then ledger.delivered link now n.id else (false, ledger, link)

/-- Record the delivery of a notification, unless there was a failure. -/
def note (worker : Worker) (ledger : Ledger) (link : Link) (now : Time.Instant)
    (n : Notification) (failure : Option String) : Ledger × Link :=
  if worker.usesLedger && failure.isNone then ledger.record link now n.id else (ledger, link)

/-- Deliver a notification. The result tells which channels failed. -/
def process (worker : Worker) (times : Times) (n : Notification) (link : Link)
    (state : State) : Except StoreError (Option String) × Link × State :=
  let (known, ledger, link) := worker.isKnown state.ledger link times.asked n
  let state := { state with ledger }
  if known then (.ok none, link, state)
  else
    let (result, outside) := worker.send n times state.outside
    let state := { state with outside }
    match result with
    | .error fault => (.error (.fault fault), link, state)
    | .ok failure =>
      match settle state.store n.history failure with
      | .error error => (.error error, link, state)
      | .ok store =>
        let (ledger, link) := worker.note state.ledger link times.recorded n failure
        (.ok failure, link, { state with store, ledger })

/-- Handle a queued job: read its notification and deliver it. The result says whether that went
through; a failed channel is no reason to repeat the job. -/
def handle (worker : Worker) (times : Times) (job : Broker.Job) (link : Link)
    (state : State) : Bool × Link × State :=
  match Notification.ofValue state.ids job.data with
  | (.error _, ids) => (false, link, { state with ids })
  | (.ok n, ids) =>
    let (result, link, state) := worker.process times n link { state with ids }
    (result.toBool, link, state)

end Worker

end LogAlert
