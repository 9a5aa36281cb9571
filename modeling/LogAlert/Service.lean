/-
# LogAlert.Service -- the parts at work together

A service consists of a store, a detection engine, two queues on one broker, a scheduler that checks
alert rules, and the workers that consume the queues. All parts share a clock, a supply of
identifiers and the connection to the broker. Each function here is one thing that the service, or
somebody who uses it, does.
-/
import LogAlert.Alert.Scheduler
import LogAlert.Broker.Consumer
import LogAlert.Delivery.Detected
import LogAlert.Delivery.Worker
import LogAlert.Store.Import

set_option autoImplicit false

namespace LogAlert

/-- All parts of a service. -/
structure Service where
  now : Time.Instant
  ids : Ids
  store : Store
  engine : Engine
  link : Link
  /-- The queue of notifications. -/
  notifications : Queue
  /-- The queue of batches to be evaluated. -/
  batches : Queue
  locking : Alert.Locking
  scheduler : Alert.Scheduler
  ledger : Ledger
  worker : Worker
  outside : Delivery.Outside
  /-- How the coming lookups of matched rules end. -/
  lookups : List Delivery.Lookup

namespace Service

/-! ## Store -/

/-- Change the store; a change that fails changes nothing. -/
def change {α : Type} (service : Service)
    (f : Store → Ids → Except StoreError (α × Store × Ids)) : Except StoreError α × Service :=
  match f service.store service.ids with
  | .error error => (.error error, service)
  | .ok (x, store, ids) => (.ok x, { service with store, ids })

/-- Read log entries and store them; those without a project belong to the given one. -/
def insertLogs (service : Service) (logs : List Value) (project : Option String) :
    Except StoreError Nat × Service :=
  service.change fun store ids => do
    let entries ← (logs.mapM fun data => LogEntry.ofValue service.now data).mapError .fault
    store.insertLogs ids entries project

/-- Read a rule, which need not be valid, and store it. -/
def saveRule (service : Service) (raw : Value) (options : Store.RuleOptions) :
    Except StoreError String × Service :=
  match Sigma.Rule.ofValue service.ids raw with
  | (.error fault, ids) => (.error (.fault fault), { service with ids })
  | (.ok rule, ids) =>
    { service with ids }.change fun store ids => store.saveRule ids rule options

/-- Import a rule text. The conversion can be impossible, for the given reason. -/
def importRule (service : Service) (noService : Option String) (request : ImportRequest) :
    Except StoreError ImportResult × Service :=
  let (result, store, ids) := service.store.importRule service.ids noService request
  (result, { service with store, ids })

/-- Write the outcome of a notification into its row of the history. -/
def markNotified (service : Service) (history : String) (error : Option String) :
    Bool × Service :=
  let (found, store) := service.store.markNotified history error
  (found, { service with store })

/-! ## Detection -/

/-- Evaluate one entry. -/
def evaluate (service : Service) (scope : Scope) (data : Value) :
    Except Fault (List Engine.Match) × Service :=
  let (result, engine) :=
    service.engine.evaluateLog service.now service.store.activeRules scope data
  (result, { service with engine })

/-- Evaluate a batch of entries. -/
def evaluateBatch (service : Service) (scope : Scope) (batch : List Value) :
    Except Fault (List (List Engine.Match)) × Service :=
  let (results, engine) :=
    service.engine.evaluateBatch service.now service.store.activeRules scope batch
  (results, { service with engine })

/-- Load the rules of a scope into the engine. -/
def loadRules (service : Service) (scope : Scope) :
    Except Fault (List Engine.CompiledRule) × Service :=
  let (rules, engine) := service.engine.load service.now service.store.activeRules scope
  (rules, { service with engine })

/-! ## Alerting -/

/-- Check one alert rule. -/
def checkRule (service : Service) (rule : Alert.Rule) :
    Except Alert.CheckError (Option Alert.Firing) × Service :=
  let (result, store, ids, link, locking) :=
    Alert.checkRule service.locking service.store service.ids service.now service.link rule
  (result, { service with store, ids, link, locking })

/-- Check all enabled alert rules. -/
def checkAll (service : Service) : List Alert.Firing × Service :=
  let (firings, store, ids, link, locking) :=
    Alert.checkAll service.locking service.store service.ids service.now service.link
  (firings, { service with store, ids, link, locking })

/-- Queue a notification of each firing. -/
def dispatch (service : Service) (firings : List Alert.Firing) : Service :=
  let (notifications, link) := Alert.dispatch firings service.notifications service.link
  { service with notifications, link }

/-- A tick with the given way of checking all rules, which yields nothing if it fails. A tick that
is skipped has no result. -/
def tickWith (check : Service → Option (List Alert.Firing) × Service) (service : Service) :
    Option (List Alert.Firing) × Service :=
  match service.scheduler.begin? with
  | (false, scheduler) => (none, { service with scheduler })
  | (true, scheduler) =>
    match check { service with scheduler } with
    | (none, service) =>
      (some [], { service with scheduler := service.scheduler.finish false })
    | (some firings, service) =>
      let service := service.dispatch firings
      (some firings, { service with scheduler := service.scheduler.finish true })

/-- A tick. -/
def tick (service : Service) : Option (List Alert.Firing) × Service :=
  service.tickWith fun service =>
    let (firings, service) := service.checkAll
    (some firings, service)

/-- A tick in which checking the rules fails altogether. -/
def tickFailing (service : Service) : Option (List Alert.Firing) × Service :=
  service.tickWith fun service => (none, service)

/-- A tick during which another one begins; the results of the inner and of the outer one. -/
def tickTwice (service : Service) :
    Option (List Alert.Firing) × Option (List Alert.Firing) × Service :=
  let (inner, _) := { service with scheduler := service.scheduler.begin?.2 }.tick
  let (outer, service) := service.tickWith fun service =>
    let (_, service) := service.tick
    let (firings, service) := service.checkAll
    (some firings, service)
  (inner, outer, service)

/-- Let ticks happen at regular intervals, and one at once if that is wanted. Nothing changes if
they do so already. -/
def start (service : Service) (immediately : Bool) : Service :=
  if service.scheduler.running then service
  else
    let service := { service with scheduler.running := true }
    if immediately then service.tick.2 else service

/-- Let no more ticks happen. -/
def stop (service : Service) : Service := { service with scheduler.running := false }

/-! ## Queues -/

/-- One of the queues. -/
inductive QueueName where
  | notifications
  | batches
deriving DecidableEq, Repr

/-- The queue of this name. -/
def queue (service : Service) : QueueName → Queue
  | .notifications => service.notifications
  | .batches => service.batches

/-- Replace a queue. -/
def withQueue (service : Service) (queue : Queue) : QueueName → Service
  | .notifications => { service with notifications := queue }
  | .batches => { service with batches := queue }

/-- Operate on a queue. -/
def onQueue {α : Type} (service : Service) (name : QueueName)
    (f : Queue → Link → Except QueueError α × Queue × Link) : Except QueueError α × Service :=
  let (result, queue, link) := f (service.queue name) service.link
  (result, { service with link }.withQueue queue name)

/-- Add a job to a queue; the result is its identifier. -/
def enqueue (service : Service) (name : QueueName) (id data : Value) (attempts : Int) :
    Except QueueError Value × Service :=
  let (result, queue, link, ids) :=
    (service.queue name).enqueue service.link service.ids id data attempts
  (result, { service with link, ids }.withQueue queue name)

/-- Submit log entries of a scope for evaluation; the result is the identifier of the job. -/
def submit (service : Service) (scope : Scope) (logs : List Value) :
    Except QueueError Value × Service :=
  match logs.mapM fun data => LogEntry.ofValue service.now data with
  | .error fault => (.error (.fault fault), service)
  | .ok entries =>
    service.enqueue .batches .null (Engine.Batch.ofEntries scope entries).toValue 0

/-! ## Workers -/

/-- What the notification worker changes. -/
def workerState (service : Service) : Worker.State :=
  ⟨service.ids, service.store, service.ledger, service.outside⟩

/-- The service with what the notification worker has changed. -/
def withWorkerState (service : Service) (link : Link) (state : Worker.State) : Service :=
  { service with
    link, ids := state.ids, store := state.store, ledger := state.ledger,
    outside := state.outside }

/-- Deliver a notification. -/
def processNotification (service : Service) (data : Value) :
    Except StoreError (Option String) × Service :=
  match Notification.ofValue service.ids data with
  | (.error fault, ids) => (.error (.fault fault), { service with ids })
  | (.ok n, ids) =>
    let service := { service with ids }
    let (result, link, state) :=
      service.worker.process (.still service.now) n service.link service.workerState
    (result, service.withWorkerState link state)

/-- Deliver all queued notifications. -/
def consumeNotifications (service : Service) : Except QueueError Unit × Service :=
  let (result, notifications, link, state) :=
    service.notifications.consume (service.worker.handle (.still service.now)) service.link
      service.workerState
  (result, { service with notifications }.withWorkerState link state)

/-- What the processing of batches changes. -/
def processing (service : Service) : Delivery.Processing :=
  ⟨service.engine, service.ids, service.notifications, service.lookups⟩

/-- The service with what the processing of batches has changed. -/
def withProcessing (service : Service) (link : Link) (state : Delivery.Processing) : Service :=
  { service with
    link, engine := state.engine, ids := state.notifying.ids,
    notifications := state.notifying.queue, lookups := state.notifying.lookups }

/-- Process a batch of the given source. -/
def processBatch (service : Service) (data : Value) (source : String) :
    Except Fault (List Notification) × Service :=
  match Engine.Batch.ofValue data with
  | .error fault => (.error fault, service)
  | .ok batch =>
    let (result, link, state) :=
      Delivery.process service.store service.now batch source service.link service.processing
    (result, service.withProcessing link state)

/-- Process all queued batches. -/
def consumeBatches (service : Service) : Except QueueError Unit × Service :=
  let (result, batches, link, state) :=
    service.batches.consume (Delivery.handle service.store service.now) service.link
      service.processing
  (result, { service with batches }.withProcessing link state)

/-! ## Ledger -/

/-- The ledger knows a key. -/
def delivered (service : Service) (key : String) : Bool × Service :=
  let (known, ledger, link) := service.ledger.delivered service.link service.now key
  (known, { service with ledger, link })

/-- Record the delivery of a key. -/
def record (service : Service) (key : String) : Service :=
  let (ledger, link) := service.ledger.record service.link service.now key
  { service with ledger, link }

/-- Count the entries of the ledger. -/
def ledgerStats (service : Service) : Ledger.Stats × Service :=
  let (stats, link) := service.ledger.stats service.link service.now
  (stats, { service with link })

end Service

end LogAlert
