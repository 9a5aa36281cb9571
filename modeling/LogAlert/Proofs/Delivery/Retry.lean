/-
# LogAlert.Proofs.Delivery.Retry -- how often a webhook is tried

A request is repeated until a reply settles the matter or no attempt is left.  What a reply means is
said by `Reply.isSuccess`, `Reply.isRefusal` and `Reply.complaint`; how many attempts are made by
`Outside.tries`, and what is seen of them by `requests`: so many requests, and between two of them a
pause, each twice as long as the one before.  Pauses in floating point are doubled exactly, so the
pause after `i + 1` requests is the first one times `2 ^ i` (`Delay.doubled_times`).

Main statement: `post_tries`, which follows by induction on the attempts that are left
(`postAll_tries`).
-/
import LogAlert.Delivery.Webhook
import LogAlert.Proofs.Number.Doubling

set_option autoImplicit false

namespace LogAlert.Delivery

/-! ## Replies -/

namespace Reply

/-- The request succeeded: a status from 200 to 299. -/
def isSuccess : Reply → Bool
  | .status code _ => 200 ≤ code && code < 300
  | _ => false

/-- The receiver finds fault with the request: a status from 400 to 499. -/
def isRefusal : Reply → Bool
  | .status code _ => 400 ≤ code && code < 500
  | _ => false

/-- No further attempt is made after the reply. -/
def settles (reply : Reply) : Bool := reply.isSuccess || reply.isRefusal

/-- What is reported of a request that failed. -/
def complaint : Reply → String
  | .status code reason => Text.trim ("HTTP " ++ Text.intText code ++ " " ++ reason.getD "")
  | .timeout => "timeout"
  | .disconnected => "connection error"
  | .failure text => text

theorem verdict_eq (reply : Reply) :
    reply.verdict =
      if reply.isSuccess then .delivered
      else if reply.isRefusal then .refused reply.complaint
      else .failed reply.complaint := by
  cases reply with
  | status code reason => simp [verdict, isSuccess, isRefusal, complaint]
  | timeout | disconnected | failure => rfl

end Reply

/-! ## Pauses -/

namespace Delay

/-- The span times a power of two. -/
def times (k : Nat) : Delay → Delay
  | .whole n => .whole (n * 2 ^ k)
  | .fractional x => .fractional (x.scaledUp k)

/-- A span in floating point has the form in which all values are made. -/
def Proper : Delay → Prop
  | .whole _ => True
  | .fractional x => x.Canonical

variable {delay : Delay}

theorem doubled_eq (delay : Delay) : delay.doubled = delay.times 1 := by
  cases delay with
  | whole n => exact congrArg whole (by rw [pow_one])
  | fractional x => exact congrArg fractional x.mul_two

theorem times_zero (proper : delay.Proper) : delay.times 0 = delay := by
  cases delay with
  | whole n => exact congrArg whole (mul_one n)
  | fractional x => exact congrArg fractional (Binary64.scaledUp_zero proper)

/-- Doubling once before is doubling once more. -/
theorem doubled_times (proper : delay.Proper) (k : Nat) :
    delay.doubled.times k = delay.times (k + 1) := by
  rw [doubled_eq]
  cases delay with
  | whole n => exact congrArg whole (by ring)
  | fractional x => exact congrArg fractional (Binary64.scaledUp_scaledUp_one proper k)

/-- The span as a number of seconds, if it is finite. -/
def seconds? : Delay → Option ℚ
  | .whole n => some n
  | .fractional x => x.ratio?.map fun (num, den) => num / den

theorem seconds?_finite (negative : Bool) (m : Nat) (e : Int) :
    (fractional (.finite negative m e)).seconds? =
      some ((if negative then -1 else 1) * (m * 2 ^ e) : ℚ) := by
  rw [← Binary64.quotient_magnitude]
  cases negative <;> simp [seconds?, Binary64.ratio?, Binary64.quotient, neg_div]

/-- The product is exact, if it is finite. -/
theorem seconds?_times (proper : delay.Proper) {k : Nat} {product : ℚ}
    (finite : (delay.times k).seconds? = some product) :
    ∃ seconds, delay.seconds? = some seconds ∧ product = seconds * 2 ^ k := by
  cases delay with
  | whole n =>
      refine ⟨n, rfl, ?_⟩
      rw [← Option.some.inj finite]
      push_cast
      rfl
  | fractional x =>
      cases x with
      | nan => cases finite
      | infinite negative => cases finite
      | finite negative m e =>
          refine ⟨_, seconds?_finite negative m e, ?_⟩
          rw [times] at finite
          cases scaled : Binary64.scaledUp k (.finite negative m e) with
          | nan => rw [scaled] at finite; cases finite
          | infinite sign => rw [scaled] at finite; cases finite
          | finite sign m' e' =>
              obtain ⟨sameSign, exact⟩ := Binary64.scaledUp_exact proper scaled
              rw [scaled, seconds?_finite, exact, sameSign, ← mul_assoc] at finite
              exact (Option.some.inj finite).symm

theorem Proper.doubled (proper : delay.Proper) : delay.doubled.Proper := by
  rw [doubled_eq]
  cases delay with
  | whole n => trivial
  | fractional x => exact Binary64.canonical_scaledUp proper 1

end Delay

/-! ## Attempts -/

/-- The reply to the next request but so many. -/
def Outside.outcome (outside : Outside) (i : Nat) : Reply :=
  outside.replies[i]?.getD (.status 200 none)

/-- How many requests are made: up to the first reply that settles the matter, and no more than are
allowed. -/
def Outside.tries (outside : Outside) (allowed : Nat) : Nat :=
  min allowed (outside.replies.findIdx Reply.settles + 1)

/-- So many requests, and the pauses between them. -/
def requests (url payload : Value) (delay : Delay) : Nat → List Event
  | 0 => []
  | more + 1 =>
    .post url payload ::
      (List.range more).flatMap fun i => [.pause (delay.times i), .post url payload]

/-- What is reported of so many attempts, unless the last one succeeded. -/
def Outside.report (outside : Outside) (reason : String) : Nat → Option String
  | 0 => some reason
  | before + 1 =>
    let last := outside.outcome before
    if last.isSuccess then none else some last.complaint

/-- The outside after so many attempts. -/
def Outside.after (outside : Outside) (url payload : Value) (delay : Delay) (tries : Nat) :
    Outside :=
  { outside with
    replies := outside.replies.drop tries
    events := outside.events ++ requests url payload delay tries }

/-- The outside after a request that failed, when so many attempts are left. -/
def Outside.paused (outside : Outside) (url payload : Value) (delay : Delay) (attempts : Nat) :
    Outside :=
  { outside with
    replies := outside.replies.drop 1
    events :=
      outside.events ++ .post url payload :: (if attempts = 0 then [] else [.pause delay]) }

variable {delay : Delay} {outside : Outside}

/-- The first reply that settles the matter is the one that is counted. -/
theorem settles_outcome (outside : Outside) :
    (outside.outcome (outside.replies.findIdx Reply.settles)).settles = true ∧
      ∀ i < outside.replies.findIdx Reply.settles, (outside.outcome i).settles = false := by
  unfold Outside.outcome
  constructor
  · by_cases within : outside.replies.findIdx Reply.settles < outside.replies.length
    · rw [List.getElem?_eq_getElem within]
      exact List.findIdx_getElem
    · rw [List.getElem?_eq_none (not_lt.1 within)]
      rfl
  · intro i before
    rw [List.getElem?_eq_getElem (lt_of_lt_of_le before List.findIdx_le_length)]
    exact List.not_of_lt_findIdx before

/-- There are as many attempts as allowed, or fewer, and then the last one settles the matter; none
before it does. -/
theorem tries_spec (outside : Outside) (allowed : Nat) :
    (outside.tries allowed = allowed ∨ outside.tries allowed < allowed ∧
        (outside.outcome (outside.tries allowed - 1)).settles = true) ∧
      ∀ i, i + 1 < outside.tries allowed → (outside.outcome i).settles = false := by
  obtain ⟨settled, unsettled⟩ := settles_outcome outside
  unfold Outside.tries
  constructor
  · rcases le_or_gt allowed (outside.replies.findIdx Reply.settles + 1) with few | many
    · exact .inl (min_eq_left few)
    · rw [min_eq_right many.le, Nat.add_sub_cancel]
      exact .inr ⟨many, settled⟩
  · intro i before
    exact unsettled i (by omega)

/-- After the first request come a pause and the other requests. -/
theorem requests_succ (proper : delay.Proper) (url payload : Value) (tries : Nat) :
    requests url payload delay (tries + 1) =
      .post url payload :: (if tries = 0 then [] else [.pause delay]) ++
        requests url payload delay.doubled tries := by
  cases tries with
  | zero => rfl
  | succ more =>
      have later : (fun i => [Event.pause (delay.doubled.times i), .post url payload]) =
          fun i => [.pause (delay.times (i + 1)), .post url payload] :=
        funext fun i => by rw [Delay.doubled_times proper]
      rw [requests, requests, later, List.range_succ_eq_map, List.flatMap_cons, List.flatMap_map,
        Delay.times_zero proper, if_neg (Nat.succ_ne_zero more)]
      rfl

/-- The report with a text in front of it. -/
theorem map_report (outside : Outside) (before reason : String) (tries : Nat) :
    (outside.report reason tries).map (before ++ ·) =
      if tries = 0 then some (before ++ reason)
      else if (outside.outcome (tries - 1)).isSuccess then none
      else some (before ++ (outside.outcome (tries - 1)).complaint) := by
  cases tries with
  | zero => rfl
  | succ made =>
      rw [Outside.report, Nat.succ_sub_one, if_neg (Nat.succ_ne_zero made)]
      cases (outside.outcome made).isSuccess <;> rfl

section

variable {later : Outside}

theorem reply_witness (outside : Outside) (event : Event) :
    (outside.witness event).reply = (outside.outcome 0, { outside with
      replies := outside.replies.drop 1, events := outside.events ++ [event] }) := by
  obtain ⟨server, replies, events⟩ := outside
  cases replies <;> rfl

theorem outcome_succ (next : later.replies = outside.replies.drop 1) (i : Nat) :
    outside.outcome (i + 1) = later.outcome i := by
  rw [Outside.outcome, Outside.outcome, next, List.getElem?_drop, Nat.add_comm]

/-- After a reply that does not settle the matter, the attempts go on with the next one. -/
theorem tries_succ (next : later.replies = outside.replies.drop 1) (allowed : Nat) :
    outside.tries (allowed + 1) =
      if (outside.outcome 0).settles then 1 else later.tries allowed + 1 := by
  obtain ⟨server, replies, events⟩ := outside
  unfold Outside.tries
  rw [next]
  cases replies with
  | nil => simp [Outside.outcome, Reply.settles, Reply.isSuccess]
  | cons first rest =>
      change min _ (List.findIdx _ (first :: rest) + 1) = if first.settles then 1 else _
      rw [List.findIdx_cons]
      cases first.settles <;> simp

theorem tries_eq_zero {allowed : Nat} : outside.tries allowed = 0 ↔ allowed = 0 := by
  rw [Outside.tries]
  omega

theorem report_succ (next : later.replies = outside.replies.drop 1)
    (failed : (outside.outcome 0).isSuccess = false) (reason : String) (tries : Nat) :
    outside.report reason (tries + 1) = later.report (outside.outcome 0).complaint tries := by
  cases tries with
  | zero => simp [Outside.report, failed]
  | succ before => rw [Outside.report, Outside.report, outcome_succ next]

end

theorem after_paused (proper : delay.Proper) (url payload : Value) {attempts tries : Nat}
    (both : tries = 0 ↔ attempts = 0) :
    (outside.paused url payload delay attempts).after url payload delay.doubled tries =
      outside.after url payload delay (tries + 1) := by
  have requested := requests_succ proper url payload tries
  simp only [both] at requested
  simp only [Outside.after, Outside.paused, requested, List.drop_drop, List.append_assoc,
    List.cons_append, Nat.add_comm 1]

/-- **A run of attempts.**  So many requests are made as are allowed and needed. -/
theorem postAll_tries (url payload : Value) (attempts : Nat) (proper : delay.Proper)
    (reason : String) (outside : Outside) :
    postAll url payload attempts delay reason outside =
      (outside.report reason (outside.tries attempts),
        outside.after url payload delay (outside.tries attempts)) := by
  induction attempts generalizing delay reason outside with
  | zero =>
      rw [Outside.tries, Nat.zero_min, Outside.after, requests, List.append_nil]
      rfl
  | succ attempts ih =>
      have next : (outside.paused url payload delay attempts).replies = outside.replies.drop 1 := rfl
      rw [postAll, reply_witness, tries_succ next]
      dsimp only
      rw [Reply.verdict_eq, Reply.settles]
      cases succeeded : (outside.outcome 0).isSuccess with
      | true => simp [Outside.report, Outside.after, requests, succeeded]
      | false =>
          cases refused : (outside.outcome 0).isRefusal with
          | true => simp [Outside.report, Outside.after, requests, succeeded]
          | false =>
              have paused : (if attempts = 0 then ({ outside with
                    replies := outside.replies.drop 1
                    events := outside.events ++ [.post url payload] } : Outside)
                  else Outside.witness { outside with
                    replies := outside.replies.drop 1
                    events := outside.events ++ [.post url payload] } (.pause delay)) =
                  outside.paused url payload delay attempts := by
                unfold Outside.paused
                split <;> simp [Outside.witness]
              simp only [Bool.false_eq_true, if_false, Bool.or_self, paused, ih proper.doubled,
                after_paused proper url payload tries_eq_zero, report_succ next succeeded reason]

/-- **The law of retries.**  Whatever replies come, and whatever the first pause is: a webhook is
tried until the first reply with a status from 200 to 299 or from 400 to 499, but not more often than
is allowed.  That the notification was not sent is reported exactly if the last attempt was no
success, with what was wrong with this attempt, or if there was no attempt.  Between two attempts,
and nowhere else, there is a pause: the first one of the given length, the one after `i` others `2 ^ i`
times as long.  This is the exact product, unless it is too large for a finite value. -/
theorem post_tries (maxAttempts : Int) (proper : delay.Proper) (url payload : Value)
    (outside : Outside) :
    let tries := outside.tries maxAttempts.toNat
    let last := outside.outcome (tries - 1)
    (tries = maxAttempts.toNat ∨ tries < maxAttempts.toNat ∧ last.settles = true) ∧
      (∀ i, i + 1 < tries → (outside.outcome i).settles = false) ∧
      post maxAttempts delay url payload outside =
        (if tries = 0 then some "Webhook request failed: no attempts made"
          else if last.isSuccess then none
          else some ("Webhook request failed: " ++ last.complaint),
        { outside with
          replies := outside.replies.drop tries
          events := outside.events ++ requests url payload delay tries }) ∧
      ∀ i product, (delay.times i).seconds? = some product →
        ∃ seconds, delay.seconds? = some seconds ∧ product = seconds * 2 ^ i := by
  intro tries last
  obtain ⟨ends, goesOn⟩ := tries_spec outside maxAttempts.toNat
  refine ⟨ends, goesOn, ?_, fun i product finite => Delay.seconds?_times proper finite⟩
  rw [post, postAll_tries url payload _ proper]
  exact Prod.ext (map_report outside _ "no attempts made" tries) rfl

/-- A receiver that is out of order, does not answer in time, and then knows nothing of the request. -/
def strayReceiver : Outside :=
  ⟨.accepting, [.status 503 (some "Service Unavailable"), .timeout, .status 404 (some "Not Found")],
    []⟩

theorem post_tries_stray :
    let tenth : Delay := .fractional (.ofRatio false 1 10)
    tenth.Proper ∧ post 5 tenth (.text "u") .null strayReceiver =
      (some "Webhook request failed: HTTP 404 Not Found",
        { strayReceiver with
          replies := []
          events := [.post (.text "u") .null, .pause tenth, .post (.text "u") .null,
            .pause (.fractional (.ofRatio false 2 10)), .post (.text "u") .null] }) := by
  intro tenth
  have canonical : (Binary64.ofRatio false 1 10).Canonical :=
    Binary64.ofRatio_canonical false 1 (by decide)
  have proper : tenth.Proper := canonical
  have first : tenth.times 0 = tenth := Delay.times_zero proper
  have second : tenth.times 1 = .fractional (.ofRatio false 2 10) := by decide +kernel
  have message : "Webhook request failed: " ++ (strayReceiver.outcome 2).complaint =
      "Webhook request failed: HTTP 404 Not Found" := by decide +kernel
  obtain ⟨-, -, law, -⟩ := post_tries 5 proper (.text "u") .null strayReceiver
  have three : strayReceiver.tries (Int.toNat 5) = 3 := by decide
  have sent : requests (.text "u") .null tenth 3 = [.post (.text "u") .null, .pause (tenth.times 0),
      .post (.text "u") .null, .pause (tenth.times 1), .post (.text "u") .null] := rfl
  rw [three, sent, first, second] at law
  refine ⟨proper, law.trans (Prod.ext ?_ rfl)⟩
  exact congrArg some message

end LogAlert.Delivery
