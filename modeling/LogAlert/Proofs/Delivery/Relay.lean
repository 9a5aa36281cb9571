/-
# LogAlert.Proofs.Delivery.Relay -- what a firing passes through

A firing is written into the history first; then its notification is queued, taken by a worker and
delivered, and only then the row gets an outcome.  A `Relay` is all that a firing passes through on
its way.  Ticks and workers act on it in any order: a tick checks the rules and queues one firing
after the other, workers reserve, handle, acknowledge and retry jobs, and stale jobs are put back.
Any command of any act may be lost.  Logs, projects and rules, the clock, the locks of other
checkers, the workers, and what becomes of mail and webhooks are any others at each act.

Beside this stands a record of the rows that ticks have added, and of each `Loss`: a firing that was
not reported, since the lock of its rule could not be given back, a notification that could not be
queued, a job that was given up after its last attempt, and a job that a retry removed without
putting it back.

What a service does is a series of such acts: a whole tick (`tick_run`), and the loop of a worker
that handles all that is queued (`consume_run`).
-/
import LogAlert.Proofs.Alert.Passes
import LogAlert.Proofs.Broker.Accounting
import LogAlert.Service

set_option autoImplicit false

namespace LogAlert

namespace Relay

/-- How the way of a notification ended before its delivery. -/
inductive Cause where
  /-- The check did not report the firing, for the lock of the rule could not be given back. -/
  | unreported
  /-- It could not be queued. -/
  | undelivered
  /-- It was given up after the last attempt. -/
  | exhausted
  /-- A retry removed it without putting it back. -/
  | mislaid
deriving DecidableEq, Repr

/-- A job that will not be delivered any more. -/
structure Loss where
  job : Value
  cause : Cause

/-- A job that a worker has taken, and whether handling it went through. -/
structure Holding where
  job : Broker.Job
  handled : Option Bool

end Relay

/-- All that a firing passes through. -/
structure Relay where
  history : List HistoryRow
  ids : Ids
  queue : Queue
  ledger : Ledger
  /-- The firings of ticks that go on, which are still to be queued. -/
  pending : List Alert.Firing
  taken : List Relay.Holding
  /-- The rows that ticks have added. -/
  fired : List String
  losses : List Relay.Loss

namespace Relay

/-- What can happen. -/
inductive Act where
  /-- A tick checks all rules. -/
  | check (locking : Alert.Locking) (now : Time.Instant) (around : Store)
  /-- A tick queues the notification of a firing. -/
  | dispatch (place : Nat)
  /-- A worker takes the next job. -/
  | reserve
  /-- A worker handles a job that was taken. -/
  | handle (place : Nat) (worker : Worker) (times : Worker.Times) (around : Store)
      (outside : Delivery.Outside)
  /-- A worker finishes a job that it has handled. -/
  | ack (place : Nat)
  /-- A worker retries a job that it has failed to handle. -/
  | retry (place : Nat)
  | requeueStale
  /-- So many names are handed out to others. -/
  | elsewhere (issued : Nat)

/-- Some history and nothing on its way. -/
def start (history : List HistoryRow) (ids : Ids) (name : String) (maxAttempts : Int)
    (asOctets : Bool) (window : Int) (isShared : Bool) : Relay :=
  ⟨history, ids, .empty name maxAttempts asOctets, .empty window isShared, [], [], [], []⟩

/-- The store with this history, among other tables. -/
def store (r : Relay) (around : Store) : Store := { around with history := r.history }

/-- The losses of the rows whose firings are not reported. -/
def unreported (rows : List String) (firings : List Alert.Firing) : List Loss :=
  (rows.filter fun id => id ∉ firings.map (·.history)).map fun id =>
    ⟨.text (Notification.idOfFiring id), .unreported⟩

/-- All rules are checked. -/
def check (r : Relay) (link : Link) (locking : Alert.Locking) (now : Time.Instant)
    (around : Store) : Relay :=
  let (firings, store, ids, _) := Alert.checkAll locking (r.store around) r.ids now link
  let rows := (store.history.drop r.history.length).map (·.id)
  { r with
    history := store.history, ids, pending := r.pending ++ firings, fired := r.fired ++ rows
    losses := r.losses ++ unreported rows firings }

/-- The notification of a pending firing is queued. -/
def dispatch (r : Relay) (link : Link) (place : Nat) (firing : Alert.Firing) : Relay :=
  let n := Notification.ofFiring firing
  let r := { r with pending := r.pending.eraseIdx place }
  match r.queue.enqueueAs link (.text n.id) n.toValue 0 with
  | (.ok (), queue, _) => { r with queue }
  | (.error _, queue, _) =>
    { r with queue, losses := r.losses ++ [⟨.text n.id, .undelivered⟩] }

/-- The next job is taken. -/
def reserve (r : Relay) (link : Link) : Relay :=
  match r.queue.reserve link with
  | (.ok (.job job), queue, _) => { r with queue, taken := r.taken ++ [⟨job, none⟩] }
  | (_, queue, _) => { r with queue }

/-- A job is handled. -/
def handle (r : Relay) (link : Link) (place : Nat) (worker : Worker) (times : Worker.Times)
    (around : Store) (outside : Delivery.Outside) (job : Broker.Job) : Relay :=
  let (handled, _, state) :=
    worker.handle times job link ⟨r.ids, r.store around, r.ledger, outside⟩
  { r with
    history := state.store.history, ids := state.ids, ledger := state.ledger
    taken := r.taken.set place ⟨job, some handled⟩ }

/-- A job is done. -/
def ack (r : Relay) (link : Link) (job : Broker.Job) : Relay :=
  { r with queue := (r.queue.ack link job).2.1 }

/-- A job has failed. -/
def retry (r : Relay) (link : Link) (job : Broker.Job) : Relay :=
  match r.queue.retry link job with
  | (.ok false, queue, _) => { r with queue, losses := r.losses ++ [⟨job.id, .exhausted⟩] }
  | (_, queue, _) =>
    { r with
      queue
      losses := if r.queue.mislays link job then r.losses ++ [⟨job.id, .mislaid⟩] else r.losses }

/-- What an act does, with the fate of its commands. Only pending firings are queued, and only jobs
that were taken are handled; they are finished as their handling ended. -/
def step (r : Relay) (link : Link) : Act → Relay
  | .check locking now around => r.check link locking now around
  | .dispatch place => r.pending[place]?.elim r (r.dispatch link place)
  | .reserve => r.reserve link
  | .handle place worker times around outside =>
    r.taken[place]?.elim r fun holding =>
      r.handle link place worker times around outside holding.job
  | .ack place =>
    match r.taken[place]? with
    | some ⟨job, some true⟩ => r.ack link job
    | _ => r
  | .retry place =>
    match r.taken[place]? with
    | some ⟨job, some false⟩ => r.retry link job
    | _ => r
  | .requeueStale => { r with queue := (r.queue.requeueStale link).2.1 }
  | .elsewhere issued => { r with ids := { r.ids with issued := r.ids.issued + issued } }

/-- What a series of acts does. -/
def run (r : Relay) (acts : List (Act × Link)) : Relay :=
  acts.foldl (fun r (act, link) => r.step link act) r

/-! ## A service acts on its relay -/

/-- The relay is what a worker sees of a queue and of what it changes. -/
structure Shows (r : Relay) (queue : Queue) (state : Worker.State) : Prop where
  history : r.history = state.store.history
  ids : r.ids = state.ids
  queue : r.queue = queue
  ledger : r.ledger = state.ledger

/-- The relay is part of the service. -/
def Of (r : Relay) (service : Service) : Prop := r.Shows service.notifications service.workerState

variable {r : Relay} {link : Link}

theorem run_cons (r : Relay) (act : Act) (link : Link) (rest : List (Act × Link)) :
    r.run ((act, link) :: rest) = (r.step link act).run rest := rfl

theorem step_dispatch {firing : Alert.Firing} {rest : List Alert.Firing}
    (pending : r.pending = firing :: rest) (link : Link) :
    ∃ losses, r.step link (.dispatch 0) = { r with
      pending := rest, losses
      queue := (r.queue.enqueueAs link (.text (Notification.ofFiring firing).id)
        (Notification.ofFiring firing).toValue 0).2.1 } := by
  rw [step, pending]
  change ∃ losses, r.dispatch link 0 firing = _
  unfold dispatch
  dsimp only
  rw [pending, List.eraseIdx_cons_zero]
  rcases r.queue.enqueueAs link (.text (Notification.ofFiring firing).id)
    (Notification.ofFiring firing).toValue 0 with ⟨error | _, queue, later⟩
  · exact ⟨_, rfl⟩
  · exact ⟨_, rfl⟩

/-- One firing after the other is queued. -/
theorem dispatch_run {firings : List Alert.Firing} (pending : r.pending = firings) (link : Link) :
    ∃ acts losses, r.run acts = { r with
      pending := [], queue := (Alert.dispatch firings r.queue link).1, losses } := by
  induction firings generalizing r link with
  | nil =>
      obtain ⟨_, _, _, _, _, _, _, losses⟩ := r
      cases pending
      exact ⟨[], losses, rfl⟩
  | cons firing rest ih =>
      obtain ⟨losses, first⟩ := step_dispatch pending link
      obtain ⟨acts, losses', others⟩ := ih (r := r.step link (.dispatch 0)) (by rw [first])
        (r.queue.enqueueAs link (.text (Notification.ofFiring firing).id)
          (Notification.ofFiring firing).toValue 0).2.2
      refine ⟨(.dispatch 0, link) :: acts, losses', ?_⟩
      rw [run_cons, others, first, Alert.dispatch]

/-- A tick checks all rules and queues what has fired, unless another one is going on. -/
theorem tick_eq (service : Service) :
    let pass :=
      Alert.checkAll service.locking service.store service.ids service.now service.link
    (service.scheduler.busy = true ∧ service.tick.2.store = service.store ∧
        service.tick.2.ids = service.ids ∧
          service.tick.2.notifications = service.notifications) ∨
      service.scheduler.busy = false ∧ service.tick.2.store = pass.2.1 ∧
        service.tick.2.ids = pass.2.2.1 ∧
          service.tick.2.notifications =
            (Alert.dispatch pass.1 service.notifications pass.2.2.2.1).1 := by
  intro pass
  unfold Service.tick Service.tickWith Alert.Scheduler.begin?
  cases service.scheduler.busy with
  | true => exact .inl ⟨rfl, rfl, rfl, rfl⟩
  | false => exact .inr ⟨rfl, rfl, rfl, rfl⟩

/-- A tick delivers nothing. -/
theorem tick_ledger (service : Service) : service.tick.2.ledger = service.ledger := by
  unfold Service.tick Service.tickWith Alert.Scheduler.begin?
  cases service.scheduler.busy <;> rfl

/-- **A tick is a check and one queueing after the other.** -/
theorem tick_run {service : Service} (isOf : r.Of service) (idle : r.pending = []) :
    ∃ acts losses, r.run acts = { r with
      history := service.tick.2.store.history, ids := service.tick.2.ids
      queue := service.tick.2.notifications, losses
      fired := r.fired ++
        (service.tick.2.store.history.drop r.history.length).map (·.id) } := by
  obtain ⟨history, ids, queue, ledger⟩ := isOf
  obtain ⟨-, store, ids', queue'⟩ | ⟨-, store, ids', queue'⟩ := tick_eq service
  · refine ⟨[], r.losses, ?_⟩
    rw [store, ids', queue', show service.store.history = r.history from history.symm,
      List.drop_length, List.map_nil, List.append_nil, show service.ids = r.ids from ids.symm,
      ← queue]
    rfl
  · have first : ∃ losses, r.check service.link service.locking service.now service.store =
        { r with
          history := service.tick.2.store.history, ids := service.tick.2.ids
          pending := (Alert.checkAll service.locking service.store service.ids service.now
            service.link).1
          fired := r.fired ++
            (service.tick.2.store.history.drop r.history.length).map (·.id), losses } := by
      have same : r.store service.store = service.store := by
        rw [Relay.store, history]
        rfl
      rw [check, same, ids, idle, store, ids']
      exact ⟨_, rfl⟩
    obtain ⟨missed, first⟩ := first
    obtain ⟨acts, losses, others⟩ := dispatch_run (congrArg Relay.pending first)
      (Alert.checkAll service.locking service.store service.ids service.now service.link).2.2.2.1
    refine ⟨(.check service.locking service.now service.store, service.link) :: acts, losses, ?_⟩
    rw [run_cons, step, others, first, queue', queue, ← idle]

/-- By some acts that neither fire nor queue anything, the relay comes to show this. -/
def Reaches (r : Relay) (queue : Queue) (state : Worker.State) : Prop :=
  ∃ acts, (r.run acts).Shows queue state ∧ (r.run acts).pending = r.pending ∧
    (r.run acts).fired = r.fired

variable {queue after : Queue} {state : Worker.State}

theorem Shows.reaches (shows : r.Shows queue state) : r.Reaches queue state :=
  ⟨[], shows, rfl, rfl⟩

theorem Reaches.step {act : Act} (reaches : (r.step link act).Reaches queue state)
    (pending : (r.step link act).pending = r.pending)
    (fired : (r.step link act).fired = r.fired) : r.Reaches queue state := by
  obtain ⟨acts, shows, pending', fired'⟩ := reaches
  exact ⟨(act, link) :: acts, shows, pending'.trans pending, fired'.trans fired⟩

theorem reserve_of_not_job {result : Except QueueError Queue.Reserved} {later : Link}
    (done : r.queue.reserve link = (result, after, later))
    (nothing : ∀ job, result ≠ .ok (.job job)) : r.reserve link = { r with queue := after } := by
  unfold reserve
  rw [done]
  split
  · rename_i job _ _ same
    cases same
    exact absurd rfl (nothing job)
  · rename_i same
    cases same
    rfl

/-- A job that was handled is finished as the loop of a worker does it. -/
theorem step_conclude {place : Nat} {job : Broker.Job} {handled : Bool}
    (found : r.taken[place]? = some ⟨job, some handled⟩) (link : Link) :
    ∃ act losses, r.step link act = { r with
      queue := (r.queue.conclude link job handled).2.1, losses } := by
  cases handled with
  | true =>
      refine ⟨.ack place, r.losses, ?_⟩
      rw [step]
      simp only [found]
      rfl
  | false =>
      refine ⟨.retry place, (r.retry link job).losses, ?_⟩
      rw [step]
      simp only [found]
      unfold retry Queue.conclude
      rcases r.queue.retry link job with ⟨error | _ | _, queue, later⟩ <;> rfl

/-- Handling the job that was taken last. -/
theorem step_handle {taken : List Holding} {job : Broker.Job} (shows : r.Shows queue state)
    (last : r.taken = taken ++ [⟨job, none⟩]) (link : Link) (worker : Worker)
    (times : Worker.Times) :
    r.step link (.handle taken.length worker times state.store state.outside) = { r with
      history := (worker.handle times job link state).2.2.store.history
      ids := (worker.handle times job link state).2.2.ids
      ledger := (worker.handle times job link state).2.2.ledger
      taken := taken ++ [⟨job, some (worker.handle times job link state).1⟩] } := by
  have same : r.store state.store = state.store := by
    rw [Relay.store, shows.history]
  rw [step, last, List.getElem?_concat_length]
  change r.handle link taken.length worker times state.store state.outside job = _
  unfold handle
  have put (holding : Holding) :
      (taken ++ [(⟨job, none⟩ : Holding)]).set taken.length holding = taken ++ [holding] := by
    simp
  simp only [same, shows.ids, shows.ledger, last, put]

/-- From another relay on the first one reaches what that one does. -/
def LeadsTo (r r' : Relay) : Prop :=
  ∀ ⦃queue state⦄, r'.Reaches queue state → r.Reaches queue state

/-- A round of a worker that finds no job. -/
theorem Shows.idle_round (shows : r.Shows queue state) {result : Except QueueError Queue.Reserved}
    {later : Link} (done : queue.reserve link = (result, after, later))
    (nothing : ∀ job, result ≠ .ok (.job job)) : ∃ r', r.LeadsTo r' ∧ r'.Shows after state := by
  have first : r.step link .reserve = { r with queue := after } :=
    reserve_of_not_job (shows.queue ▸ done) nothing
  refine ⟨{ r with queue := after }, fun queue state reaches => ?_,
    shows.history, shows.ids, rfl, shows.ledger⟩
  exact Reaches.step (first ▸ reaches) (by rw [first]) (by rw [first])

/-- A round of a worker that finds a job: it is reserved, handled and finished. -/
theorem Shows.job_round (shows : r.Shows queue state) {job : Broker.Job} {later : Link}
    (done : queue.reserve link = (.ok (.job job), after, later)) (worker : Worker)
    (times : Worker.Times) {through : Bool} {sent : Link} {state' : Worker.State}
    (outcome : worker.handle times job later state = (through, sent, state')) :
    ∃ r', r.LeadsTo r' ∧ r'.Shows (after.conclude sent job through).2.1 state' := by
  have taken : r.step link .reserve =
      { r with queue := after, taken := r.taken ++ [⟨job, none⟩] } := by
    rw [step, reserve, shows.queue, done]
  have shows' : Shows { r with queue := after, taken := r.taken ++ [⟨job, none⟩] } after state :=
    ⟨shows.history, shows.ids, rfl, shows.ledger⟩
  have handled := step_handle shows' rfl later worker times
  rw [outcome] at handled
  obtain ⟨act, losses, concluded⟩ := step_conclude (r := { r with
      history := state'.store.history, ids := state'.ids, queue := after
      ledger := state'.ledger, taken := r.taken ++ [⟨job, some through⟩] })
    List.getElem?_concat_length sent
  refine ⟨{ r with
      history := state'.store.history, ids := state'.ids
      queue := (after.conclude sent job through).2.1, ledger := state'.ledger
      taken := r.taken ++ [⟨job, some through⟩], losses },
    fun queue state reaches => ?_, rfl, rfl, rfl, rfl⟩
  have third := Reaches.step (concluded ▸ reaches) (by rw [concluded]) (by rw [concluded])
  have second := Reaches.step (handled ▸ third) (by rw [handled]) (by rw [handled])
  exact Reaches.step (taken ▸ second) (by rw [taken]) (by rw [taken])

/-- The loop of a worker is a series of acts. -/
theorem handleAll_run (worker : Worker) (times : Worker.Times) (fuel : Nat)
    (shows : r.Shows queue state) (link : Link) :
    let ended := queue.handleAll (worker.handle times) fuel link state
    r.Reaches ended.2.1 ended.2.2.2 := by
  induction fuel generalizing r queue state link with
  | zero => exact shows.reaches
  | succ fuel ih =>
      rw [Queue.handleAll]
      rcases done : queue.reserve link with ⟨result, after, later⟩
      by_cases isJob : ∃ job, result = .ok (.job job)
      · obtain ⟨job, rfl⟩ := isJob
        rcases outcome : worker.handle times job later state with ⟨through, sent, state'⟩
        obtain ⟨r', next, shows'⟩ := shows.job_round done worker times outcome
        dsimp only
        rw [outcome]
        dsimp only
        rcases ended : after.conclude sent job through with ⟨result, queue', behind⟩
        rw [ended] at shows'
        cases result with
        | error error => exact next shows'.reaches
        | ok _ => exact next (ih shows' behind)
      · obtain ⟨r', next, shows'⟩ := shows.idle_round done (not_exists.1 isJob)
        rcases result with (_ | _ | _) | (_ | _ | job)
        · exact next (ih shows' later)
        · exact next shows'.reaches
        · exact next shows'.reaches
        · exact next shows'.reaches
        · exact next (ih shows' later)
        · exact absurd ⟨job, rfl⟩ isJob

/-- **A worker that handles all that is queued acts on its relay.** -/
theorem consume_run {service : Service} (isOf : r.Of service) :
    r.Reaches service.consumeNotifications.2.notifications
      service.consumeNotifications.2.workerState := by
  obtain ⟨history, ids, queue, ledger⟩ := isOf
  have first : r.step service.link .requeueStale =
      { r with queue := (service.notifications.requeueStale service.link).2.1 } := by
    rw [step, queue]
  suffices reaches : (r.step service.link .requeueStale).Reaches
      service.consumeNotifications.2.notifications service.consumeNotifications.2.workerState by
    apply reaches.step
    · rw [first]
    · rw [first]
  rw [first]
  unfold Service.consumeNotifications Queue.consume
  rcases service.notifications.requeueStale service.link with ⟨error | _, after, later⟩
  · exact Shows.reaches ⟨history, ids, rfl, ledger⟩
  · have shows : Shows { r with queue := after } after service.workerState :=
      ⟨history, ids, rfl, ledger⟩
    exact handleAll_run service.worker (.still service.now) (after.workload later) shows later

end Relay

end LogAlert
