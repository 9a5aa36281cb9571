/-
# LogAlert.Alert.Scheduler -- ticks

A scheduler lets a tick happen at regular intervals. In a tick all rules are checked, and a
notification of each firing is queued. A tick that begins while another one is going on is skipped.
-/
import LogAlert.Alert.Check
import LogAlert.Broker.Queue
import LogAlert.Delivery.Notification

set_option autoImplicit false

namespace LogAlert.Alert

/-- The state of a scheduler. -/
structure Scheduler where
  /-- Ticks happen at regular intervals. -/
  running : Bool
  /-- A tick is going on. -/
  busy : Bool
  ticksRun : Nat
  ticksSkipped : Nat
deriving DecidableEq, Repr, Inhabited

namespace Scheduler

/-- A scheduler that has not run yet. -/
def idle : Scheduler := ⟨false, false, 0, 0⟩

/-- Begin a tick, unless one is going on. -/
def begin? (scheduler : Scheduler) : Bool × Scheduler :=
  if scheduler.busy then
    (false, { scheduler with ticksSkipped := scheduler.ticksSkipped + 1 })
  else (true, { scheduler with busy := true })

/-- The tick is over; it counts if all went well. -/
def finish (scheduler : Scheduler) (counts : Bool) : Scheduler :=
  { scheduler with
    busy := false
    ticksRun := if counts then scheduler.ticksRun + 1 else scheduler.ticksRun }

end Scheduler

/-- Queue a notification of each firing. One whose command is lost is passed over; there is no other
reason, for the notification of a rule in the store has a payload (`Alert.exists_payload_of_fired`). -/
def dispatch : List Firing → Queue → Link → Queue × Link
  | [], queue, link => (queue, link)
  | firing :: rest, queue, link =>
    let n := Notification.ofFiring firing
    let (_, queue, link) := queue.enqueueAs link (.text n.id) n.toValue 0
    dispatch rest queue link

end LogAlert.Alert
