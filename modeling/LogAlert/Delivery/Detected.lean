/-
# LogAlert.Delivery.Detected -- notifications of matches

The matches of a batch are grouped by rule, in the order in which the rules matched first. Each rule
with somebody to tell gets one notification, which is queued; it bears a key made of the batch and
the rule, so that a batch that is handled twice notifies once. A rule whose notification cannot be
made or queued is passed over.
-/
import LogAlert.Broker.Queue
import LogAlert.Delivery.Notification
import LogAlert.Engine.Batch
import LogAlert.Store.Rules

set_option autoImplicit false

namespace LogAlert.Delivery

/-- The matches of one rule. -/
structure RuleMatches where
  rule : Sigma.Rule
  /-- How many entries the rule matched. -/
  count : Nat
deriving BEq, Repr

/-- Count one more match of a rule. -/
def tally (groups : List RuleMatches) (rule : Sigma.Rule) : List RuleMatches :=
  match groups with
  | [] => [⟨rule, 1⟩]
  | group :: rest =>
    if group.rule.id = rule.id then ⟨group.rule, group.count + 1⟩ :: rest
    else group :: tally rest rule

/-- The matches of a batch, by the identifiers of their rules. -/
def grouped (results : List (List Engine.Match)) : List RuleMatches :=
  results.flatten.foldl (fun groups found => tally groups found.rule.rule) []

/-- How looking a rule up in the store ends. -/
inductive Lookup where
  /-- The store answers. -/
  | answered
  /-- The store finds no rule. -/
  | missed
  /-- The store does not answer. -/
  | failed
deriving DecidableEq, Repr, Inhabited

/-- The key of the notification of a batch and a stored rule. -/
def matchKey (source row : String) : String := "sigma:" ++ source ++ ":" ++ row

/-- The notification of matches, with this identifier. -/
def ofMatches (id : String) (batch : Engine.Batch) (group : RuleMatches) (row : DetectionRow) :
    Notification :=
  ⟨id, .null, row.id, "[Sigma] " ++ group.rule.title, batch.organization, batch.project,
    group.count, 1, 1, row.recipients.map .text, .ofText? row.webhook⟩

/-- The identifier of a notification: a key if the batch has a source, else a new name. -/
def notificationId (ids : Ids) (source row : String) : String × Ids :=
  if source = "" then ids.fresh else (matchKey source row, ids)

/-- What the notification of matches changes. -/
structure Notifying where
  ids : Ids
  queue : Queue
  /-- How the coming lookups end. -/
  lookups : List Lookup

/-- Look up the stored rule of an organization that is meant by an identifier. -/
def Notifying.find (state : Notifying) (store : Store) (organization id : String) :
    Option DetectionRow × Notifying :=
  match state.lookups with
  | [] => (store.findRule? organization id, state)
  | .answered :: rest => (store.findRule? organization id, { state with lookups := rest })
  | .missed :: rest => (none, { state with lookups := rest })
  | .failed :: rest => (none, { state with lookups := rest })

/-- Queue the notification of the matches of one rule, if somebody is to be told. -/
def notify (store : Store) (batch : Engine.Batch) (source : String) (group : RuleMatches)
    (link : Link) (state : Notifying) : Option Notification × Link × Notifying :=
  match state.find store batch.organization group.rule.id with
  | (none, state) => (none, link, state)
  | (some row, state) =>
    if !row.hasTargets then (none, link, state)
    else
      let (id, ids) := notificationId state.ids source row.id
      let n := ofMatches id batch group row
      let (result, queue, link) := state.queue.enqueueAs link (.text id) n.toValue 0
      (if result.toBool then some n else none, link, { state with ids, queue })

/-- Queue the notifications of all rules; the result lists those that were queued. -/
def notifyAll (store : Store) (batch : Engine.Batch) (source : String) :
    List RuleMatches → Link → Notifying → List Notification × Link × Notifying
  | [], link, state => ([], link, state)
  | group :: rest, link, state =>
    let (n, link, state) := notify store batch source group link state
    let (queued, link, state) := notifyAll store batch source rest link state
    (n.toList ++ queued, link, state)

/-- What the processing of batches changes. -/
structure Processing where
  engine : Engine
  notifying : Notifying

/-- Evaluate a batch and queue the notifications of its matches. -/
def process (store : Store) (now : Time.Instant) (batch : Engine.Batch) (source : String)
    (link : Link) (state : Processing) :
    Except Fault (List Notification) × Link × Processing :=
  match batch.scope with
  | .error fault => (.error fault, link, state)
  | .ok scope =>
    match state.engine.evaluateBatch now store.activeRules scope batch.logs with
    | (.error fault, engine) => (.error fault, link, { state with engine })
    | (.ok results, engine) =>
      let (queued, link, notifying) :=
        notifyAll store batch source (grouped results) link state.notifying
      (.ok queued, link, ⟨engine, notifying⟩)

/-- The source that a job is for its batch. -/
def sourceOf (job : Broker.Job) : String :=
  if job.id.truthy then job.id.shown else ""

/-- Handle a queued job: read its batch and process it. The result says whether that went
through. -/
def handle (store : Store) (now : Time.Instant) (job : Broker.Job) (link : Link)
    (state : Processing) : Bool × Link × Processing :=
  match Engine.Batch.ofValue job.data with
  | .error _ => (false, link, state)
  | .ok batch =>
    let (result, link, state) := process store now batch (sourceOf job) link state
    (result.toBool, link, state)

end LogAlert.Delivery
