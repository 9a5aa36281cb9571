/-
# LogAlert.Proofs.Alert.Decoupled -- ticks and lost commands

A tick checks all rules before it queues what has fired.  Without locks nothing is sent while rules
are checked, so the firings and the store are the same whichever commands are lost
(`checkRules_over`).  Then one command is sent for each firing, in their order, and each has its own
fate (`Link.fates`): those that are carried out add a payload each to the queue, and the others
nothing (`dispatch_carried`).

The notification of a firing can be written whatever its texts are, so that it is queued unless its
command is lost (`exists_payload_of_fired`); for its numbers fit the columns of the store:
`Store.AlertsFit` is true of all stores whose alert rules were created or imported, and the number of
logs of a firing fits its own column (`fits_of_fired`).

Main statement: `tick_decoupled`.
-/
import LogAlert.Proofs.Alert.Passes
import LogAlert.Proofs.Delivery.Firings
import LogAlert.Proofs.Store.Rules

set_option autoImplicit false

namespace LogAlert

open List

/-- Which of the next commands are carried out. -/
def Link.fates : Nat → Link → List Bool
  | 0, _ => []
  | n + 1, link => link.send.1 :: fates n link.send.2

namespace Alert

variable {locking : Locking} {now : Time.Instant} {rules : List Rule} {store : Store} {ids : Ids}
  {link : Link} {firing : Firing} {firings : List Firing}

/-! ## Checking sends nothing -/

/-- Without locks, a pass leaves the connection alone and does not depend on it. -/
theorem checkRules_over (unlocked : locking.enabled = false) (now : Time.Instant)
    (rules : List Rule) (store : Store) (ids : Ids) (link : Link) :
    checkRules now rules store ids link locking =
      let healthy := checkRules now rules store ids .sound locking
      (healthy.1, healthy.2.1, healthy.2.2.1, link, locking) := by
  induction rules generalizing store ids with
  | nil => rfl
  | cons rule rest ih =>
      simp only [checkRules_cons, Rule.verdict, Locking.acquire_disabled unlocked,
        Locking.after_disabled unlocked]
      rcases rule.due store now with error | _ | count
      · exact ih store ids
      · exact ih store ids
      · simp only [Except.mapError, ih (rule.recorded store ids.fresh.1 count now) ids.fresh.2]

/-! ## The firings of a pass -/

theorem Rule.fits_of_due {rule : Rule} {count : Nat}
    (due : rule.due store now = .ok (some count)) : Time.fitsBits 64 count = true := by
  unfold Rule.due at due
  split at due
  · cases due
  · obtain ⟨since, -, due⟩ := bind_eq_ok.1 due
    dsimp only at due
    split at due
    · cases due
    · obtain ⟨number, fits, due⟩ := bind_eq_ok.1 due
      cases due
      exact (Store.number_eq_ok.1 fits).2

/-- A firing is one of a rule of the pass, and its number of logs fits the column. -/
theorem fits_of_fired (fired : firing ∈ (checkRules now rules store ids link locking).1) :
    firing.rule ∈ rules ∧ Time.fitsBits 64 firing.count = true := by
  rw [(checkRules_eq now rules store ids link locking).1] at fired
  obtain ⟨tally, told, rfl⟩ := mem_map.1 fired
  obtain ⟨ofPass, -, before, due⟩ := due_of_mem_ruleTallies (mem_of_mem_filter told)
  exact ⟨ofPass, Rule.fits_of_due due⟩

/-- The firings of a pass have rows of their own. -/
theorem nodup_rows (now : Time.Instant) (rules : List Rule) (store : Store) (ids : Ids)
    (link : Link) (locking : Locking) :
    ((checkRules now rules store ids link locking).1.map (·.history)).Nodup := by
  rw [(checkRules_eq now rules store ids link locking).1, map_map]
  exact (ruleTallies_names now rules store ids link locking).2.1.sublist (filter_sublist.map _)

/-! ## Payloads -/

theorem isOverlong_of_fits {n : Int} (fits : Time.fitsBits 64 n = true) :
    Value.isOverlong n = false := by
  have bounds : -(2 ^ 63 : Int) ≤ n ∧ n < 2 ^ 63 := by simpa [Time.fitsBits] using fits
  refine Value.isOverlong_of_lt ?_
  calc n.natAbs < 10 ^ 20 := by omega
    _ ≤ 10 ^ Text.digitLimit := Nat.pow_le_pow_right (by decide) (by decide)

/-- The notification of a firing has a form in JSON. -/
theorem isJson_ofFiring (fits : firing.rule.FitsColumns)
    (few : Time.fitsBits 64 firing.count = true) :
    (Notification.ofFiring firing).toValue.IsJson :=
  Notification.isJson_toValue (.text _) (.ofText? _) (isOverlong_of_fits few)
    (isOverlong_of_fits fits.threshold) (isOverlong_of_fits fits.window) (.texts _) (.ofText? _)

/-- The payload is a job that was never attempted, under the identifier of the firing, and its data
are read as the notification of the firing. -/
def Carries (firing : Firing) (payload : String) : Prop :=
  ∃ job, Broker.Job.ofPayload payload = .ok (some job) ∧
    job.id = .text ("alert:" ++ firing.history) ∧ job.attempts = 0 ∧
    ∀ ids, Notification.ofValue ids job.data = (.ok (Notification.ofFiring firing), ids)

theorem exists_payload (fits : firing.rule.FitsColumns)
    (few : Time.fitsBits 64 firing.count = true) :
    ∃ payload, Broker.payload (.text (Notification.ofFiring firing).id)
      (Notification.ofFiring firing).toValue 0 = .ok payload ∧ Carries firing payload := by
  have json := isJson_ofFiring fits few
  obtain ⟨payload, written⟩ := Broker.payload_total
    (.text (Notification.ofFiring firing).id) json (show Value.isOverlong 0 = false by decide)
  refine ⟨payload, written, _, Broker.ofPayload_payload written, rfl, rfl, fun ids => ?_⟩
  rw [json.reread_eq]
  exact Notification.ofValue_toValue (Origin.key_ne_empty (.firing firing.history)) ids

/-- **Every firing of a pass has a payload**, whatever else is in the store. -/
theorem exists_payload_of_fired (fit : store.AlertsFit)
    (fired : firing ∈ (checkAll locking store ids now link).1) :
    ∃ payload, Broker.payload (.text (Notification.ofFiring firing).id)
      (Notification.ofFiring firing).toValue 0 = .ok payload ∧ Carries firing payload := by
  obtain ⟨enabled, few⟩ := fits_of_fired fired
  exact exists_payload (fit _ (mem_of_mem_filter enabled)) few

/-! ## Queueing -/

/-- The firings whose commands are carried out, if one command is sent for each. -/
def carried (link : Link) (firings : List Firing) : List Firing :=
  ((firings.zip (link.fates firings.length)).filter (·.2)).map (·.1)

theorem carried_cons (link : Link) (firing : Firing) (rest : List Firing) :
    carried link (firing :: rest) =
      (if link.send.1 then [firing] else []) ++ carried link.send.2 rest := by
  rw [carried, length_cons, Link.fates, zip_cons_cons, filter_cons]
  cases link.send.1 <;> rfl

/-- The queue gains the payloads of the firings whose commands are carried out, in their order. -/
theorem dispatch_carried
    (writable : ∀ firing ∈ firings, ∃ payload,
      Broker.payload (.text (Notification.ofFiring firing).id) (Notification.ofFiring firing).toValue
        0 = .ok payload ∧ Carries firing payload)
    (queue : Queue) (link : Link) :
    ∃ payloads, (dispatch firings queue link).1 =
        { queue with waiting := queue.waiting ++ payloads } ∧
      Forall₂ Carries (carried link firings) payloads := by
  induction firings generalizing queue link with
  | nil => exact ⟨[], by rw [dispatch, append_nil], .nil⟩
  | cons firing rest ih =>
      obtain ⟨⟨payload, written, carries⟩, others⟩ := forall_mem_cons.1 writable
      rw [carried_cons, dispatch]
      dsimp only
      rw [Queue.enqueueAs, written]
      dsimp only
      rw [Queue.sendPush]
      rcases sent : link.send with ⟨_ | _, after⟩
      · exact ih others queue after
      · obtain ⟨payloads, gained, each⟩ := ih others (queue.push payload) after
        refine ⟨payload :: payloads, ?_, .cons carries each⟩
        dsimp only
        rw [gained, Queue.push, append_assoc, singleton_append]

end Alert

namespace Service

open Alert (carried Carries)

variable {service : Service}

/-- A tick during another one is skipped. -/
theorem tick_of_busy (busy : service.scheduler.busy = true) :
    service.tick = (none, { service with
      scheduler.ticksSkipped := service.scheduler.ticksSkipped + 1 }) := by
  rw [tick, tickWith, Alert.Scheduler.begin?, if_pos busy]

/-- Any other tick checks all rules, and then queues what has fired. -/
theorem tick_of_idle (idle : service.scheduler.busy = false) :
    let pass :=
      Alert.checkAll service.locking service.store service.ids service.now service.link
    let queued := Alert.dispatch pass.1 service.notifications pass.2.2.2.1
    service.tick = (some pass.1, { service with
      store := pass.2.1, ids := pass.2.2.1, notifications := queued.1, link := queued.2
      locking := pass.2.2.2.2, scheduler.busy := false, scheduler.ticksRun := service.scheduler.ticksRun + 1 }) := by
  rw [tick, tickWith, Alert.Scheduler.begin?, if_neg (Bool.not_eq_true _ ▸ idle)]
  rfl

/-- **A tick does not depend on which commands are lost**, but for the queue.  Without locks, and in
a store whose alert rules fit their columns, the firings are those of a tick over a sound connection,
and so is all that the tick leaves behind, but for the connection and the queue of notifications.
The queue gains one payload for each firing whose command was carried out, in the order of the
firings, and nothing else.  The jobs of a tick have identifiers of their own. -/
theorem tick_decoupled (service : Service) (unlocked : service.locking.enabled = false)
    (fit : service.store.AlertsFit) :
    let healthy := { service with link := .sound }.tick
    let firings := service.tick.1.getD []
    service.tick.1 = healthy.1 ∧
      service.tick.2 =
        { healthy.2 with
          link := service.tick.2.link, notifications := service.tick.2.notifications } ∧
      (∃ payloads, service.tick.2.notifications =
          { service.notifications with
            waiting := service.notifications.waiting ++ payloads } ∧
        Forall₂ Carries (carried service.link firings) payloads) ∧
      (firings.map fun firing => "alert:" ++ firing.history).Nodup := by
  intro healthy firings
  cases busy : service.scheduler.busy with
  | true =>
      have skipped := tick_of_busy busy
      have busy' : { service with link := .sound }.scheduler.busy = true := busy
      have skipped' : healthy = _ := tick_of_busy busy'
      have none : firings = [] := congrArg (fun tick => tick.1.getD []) skipped
      rw [none, skipped, skipped']
      exact ⟨rfl, rfl, ⟨[], by rw [append_nil], .nil⟩, nodup_nil⟩
  | false =>
      have ticked := tick_of_idle busy
      have idle' : { service with link := .sound }.scheduler.busy = false := busy
      have ticked' : healthy = _ := tick_of_idle idle'
      let pass :=
        Alert.checkAll service.locking service.store service.ids service.now .sound
      have same (link : Link) : Alert.checkAll service.locking service.store service.ids
          service.now link = (pass.1, pass.2.1, pass.2.2.1, link, service.locking) :=
        Alert.checkRules_over unlocked service.now _ service.store service.ids link
      dsimp only at ticked ticked'
      rw [same] at ticked ticked'
      have fired : firings = pass.1 := congrArg (fun tick => tick.1.getD []) ticked
      obtain ⟨payloads, gained, each⟩ := Alert.dispatch_carried
        (fun _ fired => Alert.exists_payload_of_fired fit fired) service.notifications service.link
      rw [fired, ticked, ticked']
      refine ⟨rfl, rfl, ⟨payloads, gained, each⟩, ?_⟩
      have rows : (pass.1.map (·.history)).Nodup := Alert.nodup_rows ..
      rw [← Function.comp_def (fun id => "alert:" ++ id), ← map_map]
      exact rows.map fun one other same => Relay.idOfFiring_injective same

/-- A service with three alert rules, and with a connection that loses the next command. -/
def losingOne : Service :=
  { now := ⟨60 * Time.second⟩, ids := ⟨"gen", 0⟩, store := Alert.threeRules
    engine := .fresh false 0, link := .outage 0 (some 1)
    notifications := .empty "notifications" 3 false, batches := .empty "detection" 3 false
    locking := ⟨false, []⟩, scheduler := .idle, ledger := .empty 60 false
    worker := Relay.mailer, outside := .quiet, lookups := [] }

/-- The firing of the second rule, and that of the third one. -/
def bothFirings : List Alert.Firing :=
  [⟨"gen-1", Alert.anyErrorOfAll, 1, ⟨60 * Time.second⟩⟩,
    ⟨"gen-2", { Alert.anyErrorOfAll with id := "narrow", project := some "p" }, 1,
      ⟨60 * Time.second⟩⟩]

/-- Two rules fire, the command for the first firing is lost, and the other one is queued. -/
theorem tick_decoupled_losing_one :
    (losingOne.locking.enabled = false ∧ losingOne.store.AlertsFit) ∧
      losingOne.tick.1 = some bothFirings ∧
        losingOne.tick.1 = { losingOne with link := .sound }.tick.1 ∧
          ∃ payload, losingOne.tick.2.notifications.waiting = [payload] ∧
            Carries ⟨"gen-2", { Alert.anyErrorOfAll with id := "narrow", project := some "p" }, 1,
              ⟨60 * Time.second⟩⟩ payload := by
  have fit : losingOne.store.AlertsFit := by
    intro rule stored
    simp only [losingOne, Alert.threeRules, mem_cons, not_mem_nil, or_false] at stored
    rcases stored with rfl | rfl | rfl <;> exact ⟨by decide, by decide⟩
  obtain ⟨same, -, ⟨payloads, gained, each⟩, -⟩ := tick_decoupled losingOne rfl fit
  have fired : losingOne.tick.1 = some bothFirings := rfl
  have left : carried losingOne.link (losingOne.tick.1.getD []) = bothFirings.drop 1 := rfl
  rw [left] at each
  cases each with
  | @cons _ payload _ _ carries none =>
      cases none
      exact ⟨⟨rfl, fit⟩, fired, same, payload, congrArg Queue.waiting gained, carries⟩

end Service

end LogAlert
