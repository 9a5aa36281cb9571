/-
# LogAlert.Delivery.Webhook -- notifications as requests

A notification is posted to a webhook. A request that fails is repeated after a pause, and each
pause is twice as long as the one before; a receiver that finds fault with the request itself is not
asked again.
-/
import LogAlert.Delivery.Notification
import LogAlert.Delivery.Outside
import LogAlert.Text.Blank

set_option autoImplicit false

namespace LogAlert.Delivery

/-- What is posted for a notification at an instant. -/
def payloadOf (n : Notification) (now : Time.Instant) : Value :=
  .map [(.text "alert_name", .text n.ruleName), (.text "log_count", .int n.logCount),
    (.text "threshold", .int n.threshold), (.text "time_window", .int n.window),
    (.text "timestamp", .text now.text)]

/-- What follows from a reply. -/
inductive Verdict where
  | delivered
  /-- The request failed for this reason, and may be repeated. -/
  | failed (reason : String)
  /-- The request failed for this reason, and must not be repeated. -/
  | refused (reason : String)
deriving DecidableEq, Repr

/-- The verdict on a reply: a status from 200 to 299 is a success, one from 400 to 499 refuses the
request. -/
def Reply.verdict : Reply → Verdict
  | .status code reason =>
    if 200 ≤ code ∧ code < 300 then .delivered
    else
      let text := Text.trim ("HTTP " ++ Text.intText code ++ " " ++ reason.getD "")
      if 400 ≤ code ∧ code < 500 then .refused text else .failed text
  | .timeout => .failed "timeout"
  | .disconnected => .failed "connection error"
  | .failure text => .failed text

/-- Post up to so many times, with pauses in between. The result is the reason of the last failure,
unless a request succeeded. -/
def postAll (url payload : Value) : Nat → Delay → String → Outside → Option String × Outside
  | 0, _, reason, outside => (some reason, outside)
  | attempts + 1, delay, _, outside =>
    let (reply, outside) := (outside.witness (.post url payload)).reply
    match reply.verdict with
    | .delivered => (none, outside)
    | .refused reason => (some reason, outside)
    | .failed reason =>
      let outside := if attempts = 0 then outside else outside.witness (.pause delay)
      postAll url payload attempts delay.doubled reason outside

/-- Send a notification to a webhook, with at most so many attempts. The result is why that failed,
if it did. -/
def post (maxAttempts : Int) (delay : Delay) (url payload : Value) (outside : Outside) :
    Option String × Outside :=
  let (failure, outside) :=
    postAll url payload maxAttempts.toNat delay "no attempts made" outside
  (failure.map ("Webhook request failed: " ++ ·), outside)

end LogAlert.Delivery
