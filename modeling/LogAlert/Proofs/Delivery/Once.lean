/-
# LogAlert.Proofs.Delivery.Once -- a notification is delivered once

A worker with a ledger skips what was delivered before.  The runs here are those in which
notifications are delivered one after the other over a connection that loses nothing, with one
ledger that is empty at first, while everything else changes at will in between (`Run`).  A run keeps
its history: each `Call` says what the clock showed, which notification was to be delivered, whether
it was skipped, and with which result the call ended.

The invariant `Recalls` says what the ledger holds from now on: exactly the digests of the
notifications that were delivered without failure, each for the length of the window.  It is about
digests; that two identifiers have different digests is needed only where one is asked for.

* `process_of_skipped`, `process_of_sent`: what a call does.
* `skipped_iff_delivered_recently`: a call is skipped exactly if an earlier call delivered the
  notification less than a window ago, and a skipped call has no other effect.
-/
import LogAlert.Delivery.Worker
import LogAlert.Proofs.Delivery.Ledger

set_option autoImplicit false

namespace LogAlert.Worker

/-- One call for a notification. -/
structure Call where
  times : Times
  notification : Notification
  /-- The ledger knew the notification. -/
  skipped : Bool
  result : Except StoreError (Option String)

/-- The notification was not skipped, and no channel failed. -/
def Call.Delivers (call : Call) : Prop := call.skipped = false ∧ call.result = .ok none

/-- The call was recorded less than so many seconds before an instant. -/
def Call.Within (call : Call) (window : Int) (now : Time.Instant) : Prop :=
  now.micros - call.times.recorded.micros < window * Time.second

/-- The call for a notification in a state. -/
def call (worker : Worker) (times : Times) (n : Notification) (state : State) : Call :=
  { times, notification := n
    skipped := (worker.isKnown state.ledger .sound times.asked n).1
    result := (worker.process times n .sound state).1 }

/-- The clock goes on from an instant, and the ledger is used when a second begins. -/
structure Times.Follow (times : Times) (now : Time.Instant) : Prop where
  later : now ≤ times.asked
  inOrder : times.asked ≤ times.recorded
  wholeAsked : times.asked.IsWhole
  wholeRecorded : times.recorded.IsWhole

/-- A history of calls that began with this ledger: the time and the state that it leads to. Any
worker with a ledger may be called; between the calls all but the ledger may change. -/
inductive Run (ledger : Ledger) : Time.Instant → State → List Call → Prop where
  | start (now : Time.Instant) (ids : Ids) (store : Store) (outside : Delivery.Outside) :
      Run ledger now ⟨ids, store, ledger, outside⟩ []
  | called {now : Time.Instant} {state : State} {calls : List Call} (before : Run ledger now state calls)
      {worker : Worker} (uses : worker.usesLedger = true) {times : Times} (follow : times.Follow now)
      (n : Notification) :
      Run ledger times.recorded (worker.process times n .sound state).2.2
        (calls ++ [worker.call times n state])
  | elsewhere {now : Time.Instant} {state : State} {calls : List Call}
      (before : Run ledger now state calls) (ids : Ids) (store : Store) (outside : Delivery.Outside) :
      Run ledger now { state with ids, store, outside } calls

/-! ## What a call does -/

variable {worker : Worker} {times : Times} {n : Notification} {state : State} {calls : List Call}
variable {now : Time.Instant} {window : Int} {ledger : Ledger}

/-- The ledger after it was asked for the notification. -/
def askedLedger (times : Times) (n : Notification) (state : State) : Ledger :=
  (state.ledger.delivered .sound times.asked n.id).2.1

theorem isKnown_eq (uses : worker.usesLedger = true) (ledger : Ledger) (link : Link)
    (now : Time.Instant) (n : Notification) :
    worker.isKnown ledger link now n = ledger.delivered link now n.id := by
  rw [isKnown, if_pos uses]

theorem skipped_iff_holds (uses : worker.usesLedger = true) :
    (worker.call times n state).skipped = true ↔
      state.ledger.Holds times.asked (Digest.ofKey n.id) := by
  rw [call, isKnown_eq uses]
  exact (state.ledger.delivered_spec times.asked n.id).1

/-- A notification that is known is skipped: only the ledger may change, for it was asked. -/
theorem process_of_skipped (uses : worker.usesLedger = true)
    (skipped : (worker.call times n state).skipped = true) :
    worker.process times n .sound state =
      (.ok none, .sound, { state with ledger := askedLedger times n state }) := by
  have link := (state.ledger.delivered_spec times.asked n.id).2.1
  have known : (state.ledger.delivered .sound times.asked n.id).1 = true := by
    rwa [call, isKnown_eq uses] at skipped
  unfold process askedLedger
  rw [isKnown_eq uses]
  generalize state.ledger.delivered .sound times.asked n.id = answer at link known ⊢
  obtain ⟨_, ledger, _⟩ := answer
  obtain rfl : _ = true := known
  obtain rfl : _ = Link.sound := link
  rfl

/-- A notification that is not known is sent, and it is recorded if no channel failed. -/
theorem process_of_sent (uses : worker.usesLedger = true)
    (sent : (worker.call times n state).skipped = false) :
    (worker.process times n .sound state).2.1 = .sound ∧
      (worker.process times n .sound state).2.2.outside = (worker.send n times state.outside).2 ∧
      ((worker.call times n state).Delivers → (worker.send n times state.outside).1 = .ok none ∧
        (worker.process times n .sound state).2.2.ledger =
          ((askedLedger times n state).record .sound times.recorded n.id).1) ∧
      (¬ (worker.call times n state).Delivers →
        (worker.process times n .sound state).2.2.ledger = askedLedger times n state) := by
  have link := (state.ledger.delivered_spec times.asked n.id).2.1
  have unknown : (state.ledger.delivered .sound times.asked n.id).1 = false := by
    rwa [call, isKnown_eq uses] at sent
  simp only [Call.Delivers, sent, true_and]
  unfold call process askedLedger
  rw [isKnown_eq uses]
  generalize state.ledger.delivered .sound times.asked n.id = answer at link unknown ⊢
  obtain ⟨_, ledger, _⟩ := answer
  obtain rfl : _ = false := unknown
  obtain rfl : _ = Link.sound := link
  simp only [Bool.false_eq_true, if_false]
  generalize worker.send n times state.outside = sending
  obtain ⟨_ | failure, outside⟩ := sending
  · exact ⟨rfl, rfl, nofun, fun _ => rfl⟩
  · dsimp only
    cases settle state.store n.history failure with
    | error error => exact ⟨rfl, rfl, nofun, fun _ => rfl⟩
    | ok store =>
        cases failure with
        | none => simp [note, uses, Ledger.record_link]
        | some text => simp [note]

/-! ## What the ledger holds -/

/-- An earlier call delivered the digest of this identifier less than a window ago. -/
def Recent (window : Int) (now : Time.Instant) (id : String) (earlier : List Call) : Prop :=
  ∃ call ∈ earlier, call.Delivers ∧ Digest.ofKey call.notification.id = Digest.ofKey id ∧
    call.Within window now

/-- The ledger holds what these calls delivered, as long as the window is, and each of the calls was
skipped exactly if an earlier one had delivered its notification in time. -/
structure Recalls (ledger : Ledger) (window : Int) (now : Time.Instant) (calls : List Call) : Prop where
  lasts : ledger.window = window
  holds : ∀ later, later.IsWhole → now ≤ later → ∀ digest, (ledger.Holds later digest ↔
    ∃ call ∈ calls, call.Delivers ∧ Digest.ofKey call.notification.id = digest ∧
      call.Within window later)
  skips : ∀ earlier call, earlier ++ [call] <+: calls →
    (call.skipped = true ↔ Recent window call.times.asked call.notification.id earlier)

namespace Recalls

theorem start (window : Int) (isShared : Bool) (now : Time.Instant) :
    Recalls (.empty window isShared) window now [] :=
  ⟨rfl, fun later _ _ digest =>
    ⟨fun holds => absurd holds (Ledger.not_holds_empty window isShared later digest),
      fun ⟨_, member, _⟩ => absurd member List.not_mem_nil⟩,
    fun earlier call part => absurd (List.prefix_nil.1 part) (by simp)⟩

theorem mono (recalls : Recalls ledger window now calls) {later : Time.Instant}
    (passes : now ≤ later) : Recalls ledger window later calls :=
  ⟨recalls.lasts, fun instant whole behind => recalls.holds instant whole (passes.trans behind),
    recalls.skips⟩

/-- Which notifications are skipped, by their digests. -/
theorem skipped_iff (recalls : Recalls state.ledger window now calls)
    (uses : worker.usesLedger = true) (follow : times.Follow now) :
    (worker.call times n state).skipped = true ↔ Recent window times.asked n.id calls :=
  (skipped_iff_holds uses).trans (recalls.holds _ follow.wholeAsked follow.later _)

/-- What the ledger holds when it has been asked. -/
theorem asked (recalls : Recalls state.ledger window now calls) (follow : times.Follow now) :
    Recalls (askedLedger times n state) window times.asked calls := by
  obtain ⟨-, -, lasts, holds⟩ := state.ledger.delivered_spec times.asked n.id
  exact ⟨lasts.trans recalls.lasts, fun later whole passes digest =>
    (holds later passes digest).trans
      (recalls.holds later whole (follow.later.trans passes) digest), recalls.skips⟩

/-- What it holds when a delivery has been recorded, or nothing was delivered. -/
theorem called_holds (recalls : Recalls state.ledger window now calls)
    (uses : worker.usesLedger = true) (follow : times.Follow now) {later : Time.Instant}
    (whole : later.IsWhole) (passes : times.recorded ≤ later) (digest : String) :
    (worker.process times n .sound state).2.2.ledger.window = window ∧
      ((worker.process times n .sound state).2.2.ledger.Holds later digest ↔
        ∃ call ∈ calls ++ [worker.call times n state], call.Delivers ∧
          Digest.ofKey call.notification.id = digest ∧ call.Within window later) := by
  have asked : Recalls (askedLedger times n state) window times.asked calls := recalls.asked follow
  have before := asked.holds later whole (follow.inOrder.trans passes) digest
  simp only [List.mem_append, List.mem_singleton, or_and_right, exists_or, exists_eq_left]
  by_cases delivers : (worker.call times n state).Delivers
  · obtain ⟨-, -, recorded, -⟩ := process_of_sent uses delivers.1
    have unknown : ¬ (askedLedger times n state).Holds times.recorded (Digest.ofKey n.id) := by
      intro holds
      have known := (skipped_iff_holds uses).2
        (((state.ledger.delivered_spec times.asked n.id).2.2.2 times.asked (le_refl _) _).1
          (holds.earlier follow.inOrder))
      rw [delivers.1] at known
      cases known
    obtain ⟨lasts, adds⟩ := Ledger.record_spec follow.wholeRecorded unknown
    rw [(recorded delivers).2]
    refine ⟨lasts.trans asked.lasts, ?_⟩
    rw [adds later whole passes, before, asked.lasts]
    exact or_congr Iff.rfl ⟨fun ⟨own, within⟩ => ⟨delivers, own.symm, within⟩,
      fun ⟨_, own, within⟩ => ⟨own.symm, within⟩⟩
  · have same : (worker.process times n .sound state).2.2.ledger = askedLedger times n state := by
      cases skipped : (worker.call times n state).skipped with
      | true => rw [process_of_skipped uses skipped]
      | false => exact (process_of_sent uses skipped).2.2.2 delivers
    rw [same]
    exact ⟨asked.lasts, before.trans (or_iff_left fun ⟨new, _⟩ => delivers new).symm⟩

/-- **One call.** -/
theorem called (recalls : Recalls state.ledger window now calls) (uses : worker.usesLedger = true)
    (follow : times.Follow now) :
    Recalls (worker.process times n .sound state).2.2.ledger window times.recorded
      (calls ++ [worker.call times n state]) := by
  refine ⟨(recalls.called_holds uses follow follow.wholeRecorded (le_refl _) "").1,
    fun later whole passes digest => (recalls.called_holds uses follow whole passes digest).2,
    fun earlier call part => ?_⟩
  rcases List.prefix_concat_iff.1 part with whole | before
  · obtain ⟨rfl, one⟩ := List.append_inj' whole rfl
    cases one
    exact recalls.skipped_iff uses follow
  · exact recalls.skips earlier call before

/-- A whole run. -/
theorem of_run {isShared : Bool} (run : Run (.empty window isShared) now state calls) :
    Recalls state.ledger window now calls := by
  induction run with
  | start now ids store outside => exact .start window isShared now
  | called before uses follow n ih => exact ih.called uses follow
  | elsewhere before ids store outside ih => exact ih

end Recalls

/-- **A notification is skipped exactly if it was delivered less than a window ago.**  In any history
of calls over a connection that loses nothing, whatever becomes of mail and webhooks, the next call
is skipped if and only if an earlier call with the same identifier was not skipped, ended without a
failed channel, and was recorded within the window; digests are taken to be different for different
identifiers.  A call that is skipped sends nothing and changes no row; one that is not sends. -/
theorem skipped_iff_delivered_recently {isShared : Bool} {window : Int} {now : Time.Instant}
    {state : State} {calls : List Call} (run : Run (.empty window isShared) now state calls)
    {worker : Worker} (uses : worker.usesLedger = true) {times : Times} (follow : times.Follow now)
    {n : Notification} (distinct : ∀ call ∈ calls,
      Digest.ofKey call.notification.id = Digest.ofKey n.id → call.notification.id = n.id) :
    ((worker.call times n state).skipped = true ↔ ∃ call ∈ calls, call.skipped = false ∧
        call.notification.id = n.id ∧ call.result = .ok none ∧
          times.asked.micros - call.times.recorded.micros < window * Time.second) ∧
      ((worker.call times n state).skipped = true → ∃ ledger,
        worker.process times n .sound state = (.ok none, .sound, { state with ledger })) ∧
      ((worker.call times n state).skipped = false →
        (worker.process times n .sound state).2.2.outside =
          (worker.send n times state.outside).2) := by
  refine ⟨((Recalls.of_run run).skipped_iff uses follow).trans ?_,
    fun skipped => ⟨_, process_of_skipped uses skipped⟩,
    fun sent => (process_of_sent uses sent).2.1⟩
  constructor
  · rintro ⟨call, earlier, ⟨sent, succeeded⟩, same, within⟩
    exact ⟨call, earlier, sent, distinct call earlier same, succeeded, within⟩
  · rintro ⟨call, earlier, sent, same, succeeded, within⟩
    exact ⟨call, earlier, ⟨sent, succeeded⟩, congrArg Digest.ofKey same, within⟩

/-! ## A notification that comes twice -/

/-- A worker with a ledger that tries a webhook once. -/
def oneAttempt : Worker := ⟨true, default, 1, .whole 1⟩

/-- News for a webhook. -/
def posted (id : String) : Notification :=
  { id, history := .null, ruleId := "rule", ruleName := "errors", organization := "o"
    project := .null, logCount := 1, threshold := 1, window := 1, recipients := []
    webhook := .text "http://receiver" }

/-- Nothing has been delivered, and deliveries are remembered for a minute. -/
def undelivered : State := ⟨⟨"gen", 0⟩, .empty, .empty 60 true, .quiet⟩

/-- The clock stands at so many seconds. -/
def atSecond (n : Int) : Times := .still ⟨n * Time.second⟩

/-- The notification has been delivered at the start. -/
def deliveredOnce : State := (oneAttempt.process (atSecond 0) (posted "news") .sound undelivered).2.2

theorem atSecond_follow (n : Int) {now : Time.Instant} (passes : now ≤ ⟨n * Time.second⟩) :
    (atSecond n).Follow now :=
  ⟨passes, le_refl _, Int.dvd_mul_left .., Int.dvd_mul_left ..⟩

theorem deliveredOnce_run : Run (.empty 60 true) ⟨0 * Time.second⟩ deliveredOnce
    [oneAttempt.call (atSecond 0) (posted "news") undelivered] :=
  .called (.start ⟨0⟩ _ _ _) rfl (atSecond_follow 0 (le_refl _)) (posted "news")

/-- The notification is skipped for a minute, and then it is delivered again. -/
theorem skipped_iff_delivered_recently_for_a_minute :
    (oneAttempt.call (atSecond 59) (posted "news") deliveredOnce).skipped = true ∧
      (oneAttempt.call (atSecond 60) (posted "news") deliveredOnce).skipped = false := by
  have same : ∀ call ∈ [oneAttempt.call (atSecond 0) (posted "news") undelivered],
      Digest.ofKey call.notification.id = Digest.ofKey (posted "news").id →
        call.notification.id = (posted "news").id := by
    rintro call member -
    rw [List.mem_singleton.1 member]
    rfl
  constructor
  · have follow : (atSecond 59).Follow ⟨0 * Time.second⟩ := atSecond_follow 59 (by decide)
    exact (skipped_iff_delivered_recently deliveredOnce_run rfl follow same).1.2
      ⟨_, List.mem_singleton_self _, rfl, rfl, rfl, by decide⟩
  · have follow : (atSecond 60).Follow ⟨0 * Time.second⟩ := atSecond_follow 60 (by decide)
    refine Bool.eq_false_iff.2 fun skipped => ?_
    obtain ⟨call, member, -, -, -, within⟩ :=
      (skipped_iff_delivered_recently deliveredOnce_run rfl follow same).1.1 skipped
    rw [List.mem_singleton.1 member] at within
    exact absurd within (by decide)

end LogAlert.Worker
