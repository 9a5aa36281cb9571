/-
# LogAlert.Proofs.Delivery.Firings -- what becomes of a firing

Not every firing arrives.  The invariant `Relay.Sound` says that there are no losses but those on
record: a row that a tick has added has an outcome, or its job is on the queue, or the tick has not
come to it yet, or its loss is recorded; but for rows whose keys the ledger cannot tell apart.  For
this, all that is on its way has to be for a row that a tick has added, and the ledger must know
delivered ones only.

* `Relay.Sound.step`, `Relay.Sound.run`: one act keeps the invariant, and so does any number.
* `Relay.firing_accounted`: what becomes of the rows that ticks add.
* `Relay.firing_lost`: a notification that cannot be queued, and a job that is given up, leave a row
  behind of which nobody will ever hear.
-/
import LogAlert.Proofs.Delivery.Outcomes
import LogAlert.Proofs.Delivery.Relay

set_option autoImplicit false

namespace LogAlert

namespace Relay

open Store (Settled)

variable {r after : Relay} {link : Link} {id other text : String} {job : Broker.Job}

/-! ## Payloads of firings -/

/-- The payload is that of the notification of a firing with this row. -/
def For (id text : String) : Prop :=
  ∃ (n : Notification) (attempts : Int), n.id = Notification.idOfFiring id ∧
    n.history = .text id ∧ Broker.payload (.text n.id) n.toValue attempts = .ok text

theorem idOfFiring_injective
    (same : Notification.idOfFiring id = Notification.idOfFiring other) : id = other := by
  have keys : (Origin.firing id).key = (Origin.firing other).key := same
  exact Origin.firing.inj (Origin.key_injective trivial trivial keys)

namespace For

theorem ofFiring {firing : Alert.Firing} (written :
    Broker.payload (.text (Notification.ofFiring firing).id) (Notification.ofFiring firing).toValue
      0 = .ok text) : For firing.history text :=
  ⟨Notification.ofFiring firing, 0, rfl, rfl, written⟩

theorem written (isFor : For id text) :
    ∃ id data attempts, Broker.payload id data attempts = .ok text := by
  obtain ⟨n, attempts, -, -, written⟩ := isFor
  exact ⟨_, _, _, written⟩

/-- The job that a payload is read as. -/
theorem read (isFor : For id text) : ∃ job n, Broker.Job.ofPayload text = .ok (some job) ∧
    job.id = .text (Notification.idOfFiring id) ∧ job.data = Notification.toValue n ∧
      n.id = Notification.idOfFiring id ∧ n.history = .text id := by
  obtain ⟨n, attempts, own, row, written⟩ := isFor
  refine ⟨_, n.reread, Broker.ofPayload_payload written, congrArg Value.text own,
    n.reread_toValue, own, ?_⟩
  rw [Notification.reread, row]
  rfl

/-- A payload is for one firing. -/
theorem unique (isFor : For id text) (isFor' : For other text) : id = other := by
  obtain ⟨job, -, read, own, -⟩ := isFor.read
  obtain ⟨job', -, read', own', -⟩ := isFor'.read
  rw [read, Except.ok.injEq, Option.some.injEq] at read'
  rw [read', own', Value.text.injEq] at own
  exact (idOfFiring_injective own).symm

theorem opened (isFor : For id job.payload)
    (read : Broker.Job.ofPayload job.payload = .ok (some job)) :
    job.id = .text (Notification.idOfFiring id) ∧ ∃ n, job.data = Notification.toValue n ∧
      n.id = Notification.idOfFiring id ∧ n.history = .text id := by
  obtain ⟨same, n, read', own, data, keyed, row⟩ := isFor.read
  rw [read, Except.ok.injEq, Option.some.injEq] at read'
  exact read' ▸ ⟨own, n, data, keyed, row⟩

/-- A job that is put back is for the same firing. -/
theorem again (isFor : For id job.payload)
    (read : Broker.Job.ofPayload job.payload = .ok (some job)) {attempts : Int}
    (written : Broker.payload job.id job.data attempts = .ok text) : For id text := by
  obtain ⟨own, n, data, keyed, row⟩ := isFor.opened read
  rw [own, data, ← keyed] at written
  exact ⟨n, attempts, keyed, row, written⟩

end For

/-- A payload that leaves the queue belongs to one row; all others keep theirs. -/
theorem For.released {queue : Queue} {payload : String} (isFor : For id text)
    (member : payload ∈ queue.contents) (isFor' : For other payload) :
    other = id ∨ payload ∈ (queue.release text).contents := by
  by_cases same : payload = text
  · exact .inl (isFor'.unique (same ▸ isFor))
  · refine .inr (List.mem_append.2 ((List.mem_append.1 member).imp_right fun processed => ?_))
    exact (List.mem_erase_of_ne same).2 processed

theorem mem_contents_of_release {queue : Queue} {payload : String}
    (member : payload ∈ (queue.release text).contents) : payload ∈ queue.contents :=
  List.mem_append.2 ((List.mem_append.1 member).imp_right List.mem_of_mem_erase)

/-! ## The invariant -/

/-- The ledger cannot tell the key of the row from that of another one. -/
def Confused (r : Relay) (id : String) : Prop :=
  ∃ other ∈ r.fired, other ≠ id ∧ Digest.ofKey (Notification.idOfFiring other) =
    Digest.ofKey (Notification.idOfFiring id)

/-- What may have become of a row that a tick has added. -/
inductive Accounted (r : Relay) (id : String) : Prop where
  | settled (settled : Settled r.history id)
  | queued (text : String) (member : text ∈ r.queue.contents) (isFor : For id text)
  | pending (firing : Alert.Firing) (member : firing ∈ r.pending) (own : firing.history = id)
  | lost (cause : Cause) (recorded : ⟨.text (Notification.idOfFiring id), cause⟩ ∈ r.losses)
  | confused (confused : r.Confused id)

/-- The worker holds a job for the row, and handled it only if the row has its outcome. -/
structure Held (r : Relay) (holding : Holding) (id : String) : Prop where
  fired : id ∈ r.fired
  isFor : For id holding.job.payload
  read : Broker.Job.ofPayload holding.job.payload = .ok (some holding.job)
  through : holding.handled = some true → Settled r.history id ∨ r.Confused id

/-- What holds at any time: rows of ticks are in the history under names that were handed out, all
that is on its way is for such rows, the ledger knows delivered ones only, and each row is
accounted for. -/
structure Sound (r : Relay) : Prop where
  issued : ∀ id ∈ r.fired, r.ids.Issued id
  stored : ∀ id ∈ r.fired, id ∈ r.history.map (·.id)
  pending : ∀ firing ∈ r.pending, firing.history ∈ r.fired
  queued : ∀ text ∈ r.queue.contents, ∃ id ∈ r.fired, For id text
  taken : ∀ holding ∈ r.taken, ∃ id, r.Held holding id
  known : ∀ digest, r.ledger.Knows digest → ∃ id ∈ r.fired,
    Digest.ofKey (Notification.idOfFiring id) = digest ∧ Settled r.history id
  accounted : ∀ id ∈ r.fired, r.Accounted id

/-- What has been reached is kept. -/
structure Keeps (r after : Relay) : Prop where
  fired : r.fired ⊆ after.fired
  settled : ∀ id ∈ r.fired, Settled r.history id → Settled after.history id
  losses : r.losses ⊆ after.losses

theorem Confused.keep (confused : r.Confused id) (keeps : Keeps r after) : after.Confused id := by
  obtain ⟨other, fired, different, same⟩ := confused
  exact ⟨other, keeps.fired fired, different, same⟩

theorem Held.keep {holding : Holding} (held : r.Held holding id) (keeps : Keeps r after) :
    after.Held holding id :=
  ⟨keeps.fired held.fired, held.isFor, held.read, fun through =>
    (held.through through).imp (keeps.settled id held.fired) (·.keep keeps)⟩

/-- What is queued or pending has to be followed; the rest stays as it is. -/
theorem Accounted.keep (accounted : r.Accounted id) (fired : id ∈ r.fired) (keeps : Keeps r after)
    (queued : ∀ text ∈ r.queue.contents, For id text → after.Accounted id)
    (pending : ∀ firing ∈ r.pending, firing.history = id → after.Accounted id) :
    after.Accounted id := by
  cases accounted with
  | settled settled => exact .settled (keeps.settled id fired settled)
  | queued text member isFor => exact queued text member isFor
  | pending firing member own => exact pending firing member own
  | lost cause recorded => exact .lost cause (keeps.losses recorded)
  | confused confused => exact .confused (confused.keep keeps)

namespace Sound

theorem start (history : List HistoryRow) (ids : Ids) (name : String) (maxAttempts : Int)
    (asOctets : Bool) (window : Int) (isShared : Bool) :
    (start history ids name maxAttempts asOctets window isShared).Sound :=
  ⟨nofun, nofun, nofun, nofun, nofun, fun digest knows =>
    absurd knows (Ledger.not_knows_empty window isShared digest), nofun⟩

theorem named (sound : r.Sound) (fired : id ∈ r.fired) : id ≠ "" := by
  obtain ⟨number, -, rfl⟩ := sound.issued id fired
  intro none
  have chars := congrArg String.toList none
  simp [Ids.nameAt] at chars

/-- Acts that only move jobs. -/
theorem moves (sound : r.Sound) {queue : Queue} {pending : List Alert.Firing}
    {taken : List Holding} {losses : List Loss} (kept : r.losses ⊆ losses)
    (fewer : ∀ firing ∈ pending, firing ∈ r.pending)
    (queued : ∀ text ∈ queue.contents, ∃ id ∈ r.fired, For id text)
    (held : ∀ holding ∈ taken, ∃ id, r.Held holding id)
    (followed : ∀ id ∈ r.fired,
      (∀ text ∈ r.queue.contents, For id text →
        Accounted { r with queue, pending, taken, losses } id) ∧
      ∀ firing ∈ r.pending, firing.history = id →
        Accounted { r with queue, pending, taken, losses } id) :
    Sound { r with queue, pending, taken, losses } := by
  have keeps : Keeps r { r with queue, pending, taken, losses } :=
    ⟨List.Subset.refl _, fun _ _ settled => settled, kept⟩
  refine ⟨sound.issued, sound.stored, fun firing member => sound.pending firing (fewer _ member),
    queued, fun holding member => ?_, sound.known, fun id fired => ?_⟩
  · obtain ⟨id, isHeld⟩ := held holding member
    exact ⟨id, isHeld.keep keeps⟩
  · exact (sound.accounted id fired).keep fired keeps (followed id fired).1 (followed id fired).2

/-! ### Ticks -/

/-- A tick adds a row for each firing, all under new names. The firings that are not reported are on
record, and the others are still to be queued. -/
theorem check_eq (r : Relay) (link : Link) (locking : Alert.Locking) (now : Time.Instant)
    (around : Store) : ∃ (tallies : List Alert.Tally) (ids : Ids) (missed : List Loss),
      r.ids.Advances ids ∧
      (∀ tally ∈ tallies,
        ¬ r.ids.Issued tally.firing.history ∧ ids.Issued tally.firing.history) ∧
      (∀ tally ∈ tallies, tally.told = false →
        ⟨.text (Notification.idOfFiring tally.firing.history), .unreported⟩ ∈ missed) ∧
      r.check link locking now around =
        { r with
          history := r.history ++ tallies.map (·.row), ids
          pending := r.pending ++ (tallies.filter (·.told)).map (·.firing)
          fired := r.fired ++ tallies.map (·.firing.history)
          losses := r.losses ++ missed } := by
  let rules := (r.store around).enabledAlertRules none none
  let tallies := Alert.ruleTallies now rules (r.store around) r.ids link locking
  obtain ⟨reported, rows⟩ :=
    Alert.checkRules_eq now rules (r.store around) r.ids link locking
  obtain ⟨advances, distinct, names⟩ :=
    Alert.ruleTallies_names now rules (r.store around) r.ids link locking
  refine ⟨tallies, _, unreported (tallies.map (·.firing.history))
    ((tallies.filter (·.told)).map (·.firing)), advances, names, fun tally member silent => ?_, ?_⟩
  · refine List.mem_map.2 ⟨_, List.mem_filter.2 ⟨List.mem_map_of_mem member, ?_⟩, rfl⟩
    rw [decide_eq_true_eq, List.map_map]
    intro among
    obtain ⟨other, told, same⟩ := List.mem_map.1 among
    obtain ⟨isTally, told⟩ := List.mem_filter.1 told
    rw [List.inj_on_of_nodup_map distinct isTally member same, silent] at told
    cases told
  · unfold check Alert.checkAll
    dsimp only
    rw [rows, reported, show (r.store around).history = r.history from rfl, List.drop_left,
      List.map_map]
    rfl

theorem check (sound : r.Sound) (link : Link) (locking : Alert.Locking) (now : Time.Instant)
    (around : Store) : (r.check link locking now around).Sound := by
  obtain ⟨tallies, ids, missed, advances, names, silent, after⟩ :=
    check_eq r link locking now around
  rw [after]
  have keeps : Keeps r { r with
      history := r.history ++ tallies.map (·.row), ids
      pending := r.pending ++ (tallies.filter (·.told)).map (·.firing)
      fired := r.fired ++ tallies.map (·.firing.history), losses := r.losses ++ missed } := by
    refine ⟨List.subset_append_left _ _, fun id fired settled row member own => ?_,
      List.subset_append_left _ _⟩
    rcases List.mem_append.1 member with old | new
    · exact settled row old own
    · -- a new row does not bear the name of an old one
      obtain ⟨tally, among, rfl⟩ := List.mem_map.1 new
      exact absurd (sound.issued id fired) (own ▸ (names tally among).1)
  have news {id : String} (new : id ∈ tallies.map (·.firing.history)) :
      ∃ tally ∈ tallies, tally.firing.history = id := List.mem_map.1 new
  refine ⟨fun id fired => ?_, fun id fired => ?_, fun firing member => ?_, fun text member => ?_,
    fun holding member => ?_, fun digest knows => ?_, fun id fired => ?_⟩
  · rcases List.mem_append.1 fired with old | new
    · exact (sound.issued id old).mono advances
    · obtain ⟨tally, among, rfl⟩ := news new
      exact (names tally among).2
  · rw [List.map_append, List.map_map]
    exact List.mem_append.2 ((List.mem_append.1 fired).imp_left (sound.stored id))
  · refine List.mem_append.2 ((List.mem_append.1 member).imp (sound.pending firing) ?_)
    rintro reported
    obtain ⟨tally, among, rfl⟩ := List.mem_map.1 reported
    exact List.mem_map_of_mem (f := fun tally : Alert.Tally => tally.firing.history)
      (List.mem_of_mem_filter among)
  · obtain ⟨id, fired, isFor⟩ := sound.queued text member
    exact ⟨id, keeps.fired fired, isFor⟩
  · obtain ⟨id, held⟩ := sound.taken holding member
    exact ⟨id, held.keep keeps⟩
  · obtain ⟨id, fired, same, settled⟩ := sound.known digest knows
    exact ⟨id, keeps.fired fired, same, keeps.settled id fired settled⟩
  · rcases List.mem_append.1 fired with old | new
    · exact (sound.accounted id old).keep old keeps
        (fun text member isFor => .queued text member isFor)
        (fun firing member own => .pending firing (List.mem_append_left _ member) own)
    · obtain ⟨tally, among, rfl⟩ := news new
      cases told : tally.told with
      | false => exact .lost .unreported (List.mem_append_right _ (silent tally among told))
      | true =>
          exact .pending tally.firing (List.mem_append_right _
            (List.mem_map_of_mem (List.mem_filter.2 ⟨among, told⟩))) rfl

theorem dispatch (sound : r.Sound) (link : Link) {place : Nat} {firing : Alert.Firing}
    (found : r.pending[place]? = some firing) : (r.dispatch link place firing).Sound := by
  have member : firing ∈ r.pending := List.mem_of_getElem? found
  have fewer : ∀ other ∈ r.pending.eraseIdx place, other ∈ r.pending :=
    fun other => List.mem_of_mem_eraseIdx
  have left {other : Alert.Firing} (isPending : other ∈ r.pending) :
      other = firing ∨ other ∈ r.pending.eraseIdx place := by
    obtain ⟨index, at?⟩ := List.mem_iff_getElem?.1 isPending
    by_cases same : index = place
    · rw [same, found] at at?
      exact .inl (Option.some.inj at?).symm
    · exact .inr (List.mem_eraseIdx_iff_getElem?.2 ⟨index, same, at?⟩)
  unfold Relay.dispatch
  rcases done : r.queue.enqueueAs link (.text (Notification.ofFiring firing).id)
    (Notification.ofFiring firing).toValue 0 with ⟨result, queue, later⟩
  dsimp only
  rw [done]
  obtain ⟨text, written, rfl, rfl⟩ | ⟨⟨error, rfl⟩, rfl⟩ := Queue.enqueueAs_over done
  · have contents := Queue.contents_push r.queue text
    have isFor : For firing.history text := .ofFiring written
    refine sound.moves (List.Subset.refl _) fewer (fun other queued => ?_) sound.taken
      fun id fired => ⟨fun other queued isFor => ?_, fun other isPending own => ?_⟩
    · rcases List.mem_cons.1 (contents.mem_iff.1 queued) with rfl | old
      · exact ⟨firing.history, sound.pending firing member, isFor⟩
      · exact sound.queued other old
    · exact .queued other (contents.mem_iff.2 (List.mem_cons_of_mem _ queued)) isFor
    · rcases left isPending with rfl | stays
      · exact .queued text (contents.mem_iff.2 List.mem_cons_self) (own ▸ isFor)
      · exact .pending other stays own
  · refine sound.moves (List.subset_append_left _ _) fewer sound.queued sound.taken
      fun id fired => ⟨fun other queued isFor => .queued other queued isFor,
        fun other isPending own => ?_⟩
    rcases left isPending with rfl | stays
    · exact .lost .undelivered (List.mem_append_right _ (own ▸ List.mem_singleton_self _))
    · exact .pending other stays own

/-! ### Workers -/

theorem reserve (sound : r.Sound) (link : Link) : (r.reserve link).Sound := by
  have written : ∀ text ∈ r.queue.waiting, ∃ id data attempts,
      Broker.payload id data attempts = .ok text := by
    intro text waits
    obtain ⟨id, -, isFor⟩ := sound.queued text (List.mem_append_left _ waits)
    exact isFor.written
  unfold Relay.reserve
  rcases done : r.queue.reserve link with ⟨result, queue, later⟩
  obtain ⟨job, rest, waiting, rfl, rfl⟩ | ⟨nothing, rfl⟩ := Queue.reserve_cases written done
  · have same : List.Perm
        (Queue.contents { r.queue with
          waiting := rest, processing := r.queue.processing ++ [job.payload] })
        r.queue.contents := by
      simp only [Queue.contents, waiting, ← List.append_assoc]
      exact List.perm_append_comm
    obtain ⟨id, fired, isFor⟩ := sound.queued job.payload
      (List.mem_append_left _ (waiting ▸ List.mem_cons_self))
    refine sound.moves (List.Subset.refl _) (fun _ isPending => isPending)
      (fun text member => sound.queued text (same.mem_iff.1 member)) (fun holding member => ?_)
      fun id fired => ⟨fun text member isFor => .queued text (same.mem_iff.2 member) isFor,
        fun firing isPending own => .pending firing isPending own⟩
    rcases List.mem_append.1 member with old | new
    · exact sound.taken holding old
    · obtain ⟨opened, -, read, -⟩ := isFor.read
      obtain rfl := Queue.reserve_read waiting read done
      rw [List.mem_singleton.1 new]
      exact ⟨id, fired, isFor, read, fun through => absurd through (Option.some_ne_none true).symm⟩
  · split
    · rename_i job _ _ taken
      cases taken
      exact absurd rfl (nothing job)
    · rename_i same
      cases same
      exact sound

theorem handle (sound : r.Sound) (link : Link) {place : Nat} {holding : Holding}
    (found : r.taken[place]? = some holding) (worker : Worker) (times : Worker.Times)
    (around : Store) (outside : Delivery.Outside) :
    (r.handle link place worker times around outside holding.job).Sound := by
  obtain ⟨id, held⟩ := sound.taken holding (List.mem_of_getElem? found)
  obtain ⟨-, n, data, key, own⟩ := held.isFor.opened held.read
  have keyed : n.id ≠ "" := key ▸ Origin.key_ne_empty (.firing id)
  have handled := Worker.handle_handled worker times link ⟨r.ids, r.store around, r.ledger, outside⟩
    (sound.named held.fired) keyed own data
  unfold Relay.handle
  generalize worker.handle times holding.job link ⟨r.ids, r.store around, r.ledger, outside⟩ =
    outcome at handled ⊢
  obtain ⟨through, later, state⟩ := outcome
  dsimp only at handled ⊢
  have keeps : Keeps r { r with
      history := state.store.history, ids := state.ids, ledger := state.ledger
      taken := r.taken.set place ⟨holding.job, some through⟩ } :=
    ⟨List.Subset.refl _, fun id _ settled => handled.settled id settled, List.Subset.refl _⟩
  -- what the ledger knew was the row's own delivery, unless it cannot tell keys apart
  have reached (done : through = true) : Settled state.store.history id ∨ r.Confused id := by
    rcases handled.through done with knows | settled
    · obtain ⟨other, fired, same, settled⟩ := sound.known _ knows
      by_cases isOwn : other = id
      · exact .inl (handled.settled id (isOwn ▸ settled))
      · exact .inr ⟨other, fired, isOwn, key ▸ same⟩
    · exact .inl settled
  refine ⟨fun id fired => ?_, fun id fired => ?_, sound.pending, sound.queued,
    fun other member => ?_, fun digest knows => ?_, fun id fired => ?_⟩
  · rw [handled.ids]
    exact sound.issued id fired
  · rw [handled.names]
    exact sound.stored id fired
  · rcases List.mem_or_eq_of_mem_set member with old | rfl
    · obtain ⟨id, isHeld⟩ := sound.taken other old
      exact ⟨id, isHeld.keep keeps⟩
    · exact ⟨id, held.fired, held.isFor, held.read, fun done =>
        (reached (Option.some.inj done)).imp_right (·.keep keeps)⟩
  · rcases handled.knows digest knows with old | ⟨rfl, settled⟩
    · obtain ⟨other, fired, same, settled⟩ := sound.known digest old
      exact ⟨other, fired, same, handled.settled other settled⟩
    · exact ⟨id, held.fired, by rw [key], settled⟩
  · exact (sound.accounted id fired).keep fired keeps
      (fun text member isFor => .queued text member isFor)
      (fun firing member own => .pending firing member own)

theorem ack (sound : r.Sound) (link : Link) (member : ⟨job, some true⟩ ∈ r.taken) :
    (r.ack link job).Sound := by
  obtain ⟨id, held⟩ := sound.taken _ member
  unfold Relay.ack
  rcases done : r.queue.ack link job with ⟨result, queue, later⟩
  obtain ⟨-, -, rfl⟩ | ⟨-, -, rfl⟩ := Queue.ack_cases done
  · refine sound.moves (List.Subset.refl _) (fun _ isPending => isPending)
      (fun text queued => sound.queued text (mem_contents_of_release queued)) sound.taken
      fun other fired => ⟨fun text queued isFor => ?_, fun firing isPending own =>
        .pending firing isPending own⟩
    rcases held.isFor.released queued isFor with rfl | stays
    · rcases held.through rfl with settled | confused
      · exact .settled settled
      · exact .confused confused
    · exact .queued text stays isFor
  · exact sound

/-- A job that leaves the queue for good is a recorded loss. -/
theorem loses (sound : r.Sound) {holding : Holding} (held : r.Held holding id) (cause : Cause) :
    Sound { r with
      queue := r.queue.release holding.job.payload
      losses := r.losses ++ [⟨holding.job.id, cause⟩] } := by
  have own := (held.isFor.opened held.read).1
  refine sound.moves (List.subset_append_left _ _) (fun _ isPending => isPending)
    (fun text queued => sound.queued text (mem_contents_of_release queued)) sound.taken
    fun other _ => ⟨fun text queued isFor => ?_, fun firing isPending own =>
      .pending firing isPending own⟩
  rcases held.isFor.released queued isFor with rfl | stays
  · exact .lost cause (List.mem_append_right _ (own ▸ List.mem_singleton_self _))
  · exact .queued text stays isFor

theorem retry (sound : r.Sound) (link : Link) {holding : Holding} (member : holding ∈ r.taken) :
    (r.retry link holding.job).Sound := by
  obtain ⟨id, held⟩ := sound.taken _ member
  unfold Relay.retry
  rcases done : r.queue.retry link holding.job with ⟨result, queue, later⟩
  obtain ⟨⟨error, rfl⟩, rfl, kept⟩ | ⟨rfl, rfl, -⟩ | ⟨text, written, rfl, rfl, kept⟩ |
    ⟨⟨error, rfl⟩, rfl, gone⟩ := Queue.retry_cases done
  · rw [kept]
    exact sound
  · exact sound.loses held .exhausted
  · have contents := Queue.contents_push (r.queue.release holding.job.payload) text
    have isFor : For id text := held.isFor.again held.read written
    rw [kept]
    refine sound.moves (List.Subset.refl _) (fun _ isPending => isPending)
      (fun other queued => ?_) sound.taken
      fun other _ => ⟨fun payload queued isFor' => ?_, fun firing isPending own =>
        .pending firing isPending own⟩
    · rcases List.mem_cons.1 (contents.mem_iff.1 queued) with rfl | old
      · exact ⟨id, held.fired, isFor⟩
      · exact sound.queued other (mem_contents_of_release old)
    · rcases held.isFor.released queued isFor' with rfl | stays
      · exact .queued text (contents.mem_iff.2 List.mem_cons_self) isFor
      · exact .queued payload (contents.mem_iff.2 (List.mem_cons_of_mem _ stays)) isFor'
  · rw [gone]
    exact sound.loses held .mislaid

theorem requeueStale (sound : r.Sound) (link : Link) :
    Sound { r with queue := (r.queue.requeueStale link).2.1 } := by
  have same := Queue.putBack_perm r.queue.processing 0 r.queue link rfl
  exact sound.moves (List.Subset.refl _) (fun _ isPending => isPending)
    (fun text queued => sound.queued text (same.mem_iff.1 queued)) sound.taken
    fun id fired => ⟨fun text queued isFor => .queued text (same.mem_iff.2 queued) isFor,
      fun firing isPending own => .pending firing isPending own⟩

theorem elsewhere (sound : r.Sound) (issued : Nat) :
    Sound { r with ids := { r.ids with issued := r.ids.issued + issued } } := by
  have advances : r.ids.Advances { r.ids with issued := r.ids.issued + issued } :=
    ⟨rfl, Nat.le_add_right _ _⟩
  have keeps : Keeps r { r with ids := { r.ids with issued := r.ids.issued + issued } } :=
    ⟨List.Subset.refl _, fun _ _ settled => settled, List.Subset.refl _⟩
  refine ⟨fun id fired => (sound.issued id fired).mono advances, sound.stored, sound.pending,
    sound.queued, fun holding member => ?_, sound.known, fun id fired => ?_⟩
  · obtain ⟨id, held⟩ := sound.taken holding member
    exact ⟨id, held.keep keeps⟩
  · exact (sound.accounted id fired).keep fired keeps
      (fun text member isFor => .queued text member isFor)
      (fun firing member own => .pending firing member own)

/-- **One act.** -/
theorem step (sound : r.Sound) (link : Link) (act : Act) : (r.step link act).Sound := by
  cases act with
  | check locking now around => exact sound.check link locking now around
  | dispatch place =>
      rw [Relay.step]
      cases found : r.pending[place]? with
      | none => exact sound
      | some firing => exact sound.dispatch link found
  | reserve => exact sound.reserve link
  | handle place worker times around outside =>
      rw [Relay.step]
      cases found : r.taken[place]? with
      | none => exact sound
      | some holding => exact sound.handle link found worker times around outside
  | ack place =>
      rw [Relay.step]
      split
      · exact sound.ack link (List.mem_of_getElem? ‹_›)
      · exact sound
  | retry place =>
      rw [Relay.step]
      split
      · exact sound.retry link (List.mem_of_getElem? ‹_›)
      · exact sound
  | requeueStale => exact sound.requeueStale link
  | elsewhere issued => exact sound.elsewhere issued

/-- Any number of acts. -/
theorem run (sound : r.Sound) (acts : List (Act × Link)) : (r.run acts).Sound := by
  induction acts generalizing r with
  | nil => exact sound
  | cons act rest ih => exact ih (sound.step act.2 act.1)

/-- A whole tick. -/
theorem tick {service : Service} (sound : r.Sound) (isOf : r.Of service) (idle : r.pending = []) :
    ∃ after : Relay, after.Sound ∧ after.Of service.tick.2 ∧ after.pending = [] ∧
      after.fired = r.fired ++
        (service.tick.2.store.history.drop service.store.history.length).map (·.id) := by
  obtain ⟨acts, losses, ticked⟩ := tick_run isOf idle
  refine ⟨r.run acts, sound.run acts, ?_, ?_, ?_⟩ <;> rw [ticked]
  · exact ⟨rfl, rfl, rfl, isOf.ledger.trans (tick_ledger service).symm⟩
  · exact idle
  · rw [isOf.history]
    rfl

/-- A worker handles all that is queued. -/
theorem consume {service : Service} (sound : r.Sound) (isOf : r.Of service)
    (idle : r.pending = []) :
    ∃ after : Relay, after.Sound ∧ after.Of service.consumeNotifications.2 ∧ after.pending = [] ∧
      after.fired = r.fired := by
  obtain ⟨acts, shows, pending, fired⟩ := consume_run isOf
  exact ⟨r.run acts, sound.run acts, shows, pending.trans idle, fired⟩

end Sound

/-! ## What becomes of the rows that ticks add -/

/-- The row has its outcome, or its job is on the queue or being processed. -/
def InHand (r : Relay) (row : HistoryRow) : Prop :=
  row.HasOutcome ∨ ∃ text ∈ r.queue.waiting ++ r.queue.processing, ∃ job,
    Broker.Job.ofPayload text = .ok (some job) ∧
      job.id = .text (Notification.idOfFiring row.id)

/-- **No firing is lost, but for those on record.**  Whatever ticks and workers do, in whatever order,
and whichever of their commands are lost, a row that a tick has added stays in the history, and has
its outcome, or its job is on one of the two lists of the queue; unless the tick has not come to it
yet, its firing was not reported as the lock of its rule could not be given back, its notification
could not be queued, a retry gave its job up or did not put it back, or the ledger has the same
digest for its key and that of another row. -/
theorem firing_accounted (history : List HistoryRow) (ids : Ids) (name : String)
    (maxAttempts : Int) (asOctets : Bool) (window : Int) (isShared : Bool)
    (acts : List (Act × Link)) :
    let after := (start history ids name maxAttempts asOctets window isShared).run acts
    (∀ id ∈ after.fired, ∃ row ∈ after.history, row.id = id) ∧
      ∀ row ∈ after.history, row.id ∈ after.fired →
        after.InHand row ∨ (∃ firing ∈ after.pending, firing.history = row.id) ∨
          (∃ cause, ⟨.text (Notification.idOfFiring row.id), cause⟩ ∈ after.losses) ∨
            ∃ other ∈ after.fired, other ≠ row.id ∧
              Digest.ofKey (Notification.idOfFiring other) =
                Digest.ofKey (Notification.idOfFiring row.id) := by
  intro after
  have sound : after.Sound :=
    (Sound.start history ids name maxAttempts asOctets window isShared).run acts
  refine ⟨fun id fired => List.mem_map.1 (sound.stored id fired), fun row stored fired => ?_⟩
  cases sound.accounted row.id fired with
  | settled settled => exact .inl (.inl (settled row stored rfl))
  | queued text member isFor =>
      obtain ⟨job, -, read, own, -⟩ := isFor.read
      exact .inl (.inr ⟨text, member, job, read, own⟩)
  | pending firing member own => exact .inr (.inl ⟨firing, member, own⟩)
  | lost cause recorded => exact .inr (.inr (.inl ⟨cause, recorded⟩))
  | confused confused => exact .inr (.inr (.inr confused))

/-! ## Firings that are lost -/

/-- Nothing has fired yet. -/
def quiet (maxAttempts : Int) : Relay :=
  start [] ⟨"gen", 0⟩ "notifications" maxAttempts false 3600 false

/-- A tick checks the rules a minute after the start of 1970. -/
def checked (around : Store) : Act × Link :=
  (.check ⟨false, []⟩ ⟨60 * Time.second⟩ around, .sound)

/-- A row without outcome. -/
def leftBehind : HistoryRow := ⟨"gen-1", "rule", ⟨60 * Time.second⟩, 1, false, none⟩

/-- The rule of `Alert.oneTenant` fires, and the command that is to queue this is lost. -/
def unqueued : List (Act × Link) :=
  [checked Alert.oneTenant, (.dispatch 0, .outage 0 (some 1))]

theorem unqueued_leaves : ((quiet 3).run unqueued).pending.length = 0 ∧
    ((quiet 3).run unqueued).fired = [leftBehind.id] ∧
      ((quiet 3).run unqueued).queue.contents = [] ∧
        ((quiet 3).run unqueued).history = [leftBehind] := by
  decide +kernel

/-- A store with one rule, whose name cannot stand in the head of a mail message. -/
def unmailable : Store :=
  { Alert.oneTenant with
    alertRules := [{ Alert.anyErrorOfAll with name := "two\nlines", recipients := ["a@b.c"] }] }

/-- Its firing. -/
def unmailedFiring : Alert.Firing :=
  ⟨leftBehind.id, { Alert.anyErrorOfAll with name := "two\nlines", recipients := ["a@b.c"] }, 1,
    ⟨60 * Time.second⟩⟩

/-- The notification of this. -/
def unmailed : Notification := .ofFiring unmailedFiring

/-- A worker that knows a mail server. -/
def mailer : Worker := ⟨false, { (default : Delivery.MailSettings) with host := .text "mail" }, 3,
  .whole 1⟩

theorem unmailed_fails (state : Worker.State) :
    mailer.process (.still ⟨60 * Time.second⟩) unmailed .sound state =
      (.error (.fault .severalLines), .sound, state) := rfl

/-- The job of the notification, when it is taken for the first time. -/
def unmailedJob (payload : String) : Broker.Job :=
  ⟨.text unmailed.id, unmailed.toValue, 0, payload⟩

theorem unmailedJob_read {payload : String}
    (written : Broker.payload (.text unmailed.id) unmailed.toValue 0 = .ok payload) :
    Broker.Job.ofPayload payload = .ok (some (unmailedJob payload)) := by
  rw [Broker.ofPayload_payload written, Notification.reread_toValue]
  rfl

theorem unmailedJob_fails (payload : String) (state : Worker.State) :
    mailer.handle (.still ⟨60 * Time.second⟩) (unmailedJob payload) .sound state =
      (false, .sound, state) := by
  have read : Notification.ofValue state.ids unmailed.toValue = (.ok unmailed, state.ids) :=
    Notification.ofValue_toValue (by decide) state.ids
  rw [Worker.handle, unmailedJob, read]
  simp only [unmailed_fails]
  rfl

/-- The firing is queued, and the job of its notification is taken, handled and retried. -/
def attempted : List (Act × Link) :=
  [(.dispatch 0, .sound), (.reserve, .sound),
    (.handle 0 mailer (.still ⟨60 * Time.second⟩) unmailable .quiet, .sound), (.retry 0, .sound)]

/-- Over a sound connection the notification of a firing is queued if it can be written. -/
theorem step_dispatch_sound {firing : Alert.Firing} {payload : String}
    (pending : r.pending = [firing])
    (written : Broker.payload (.text (Notification.ofFiring firing).id)
      (Notification.ofFiring firing).toValue 0 = .ok payload) :
    r.step .sound (.dispatch 0) = { r with pending := [], queue := r.queue.push payload } := by
  rw [step, pending]
  change r.dispatch .sound 0 firing = _
  unfold Relay.dispatch
  dsimp only
  rw [Queue.enqueueAs_carried written rfl, pending]
  rfl

/-- Over a sound connection the job that has waited longest is taken. -/
theorem step_reserve_sound {payload : String} {rest : List String}
    (waiting : r.queue.waiting = payload :: rest)
    (read : Broker.Job.ofPayload payload = .ok (some job)) :
    r.step .sound .reserve = { r with
      queue.waiting := rest, queue.processing := r.queue.processing ++ [payload]
      taken := r.taken ++ [⟨job, none⟩] } := by
  rw [step, Relay.reserve, Queue.reserve_carried waiting read rfl]

/-- Over a sound connection a job that has failed for the last time is given up. -/
theorem step_retry_sound {place : Nat} (found : r.taken[place]? = some ⟨job, some false⟩)
    (last : r.queue.maxAttempts ≤ job.attempts + 1) :
    r.step .sound (.retry place) = { r with
      queue := r.queue.release job.payload, losses := r.losses ++ [⟨job.id, .exhausted⟩] } := by
  have sound : Link.sound.send = (true, .sound) := rfl
  have given : r.queue.retry .sound job = (.ok false, r.queue.release job.payload, .sound) := by
    simp only [Queue.retry, Queue.ack, Queue.sendRelease, sound]
    exact if_pos last
  rw [step]
  simp only [found]
  rw [Relay.retry, given]

/-- If there is one attempt only, the job is given up. -/
theorem attempted_exhausts {payload : String} (fresh : r.taken = [])
    (noneWaits : r.queue.waiting = []) (idle : r.queue.processing = [])
    (pending : r.pending = [unmailedFiring])
    (written : Broker.payload (.text unmailed.id) unmailed.toValue 0 = .ok payload)
    (last : r.queue.maxAttempts ≤ 1) :
    r.run attempted = { r with
      pending := [], queue.waiting := [], taken := [⟨unmailedJob payload, some false⟩]
      losses := r.losses ++ [⟨.text unmailed.id, .exhausted⟩] } := by
  have queued : r.step .sound (.dispatch 0) =
      { r with pending := [], queue.waiting := [payload] } := by
    rw [step_dispatch_sound pending written, Queue.push, noneWaits, List.nil_append]
  have taken : Relay.step { r with pending := [], queue.waiting := [payload] } .sound .reserve =
      { r with
        pending := [], queue.waiting := [], queue.processing := [payload]
        taken := [⟨unmailedJob payload, none⟩] } := by
    rw [step_reserve_sound rfl (unmailedJob_read written)]
    simp only [idle, fresh, List.nil_append]
  have handled : Relay.step { r with
        pending := [], queue.waiting := [], queue.processing := [payload]
        taken := [⟨unmailedJob payload, none⟩] } .sound
        (.handle 0 mailer (.still ⟨60 * Time.second⟩) unmailable .quiet) =
      { r with
        pending := [], queue.waiting := [], queue.processing := [payload]
        taken := [⟨unmailedJob payload, some false⟩] } := by
    simp only [step, List.getElem?_cons_zero, Option.elim, Relay.handle, unmailedJob_fails,
      List.set_cons_zero, Relay.store]
  have retried : Relay.step { r with
        pending := [], queue.waiting := [], queue.processing := [payload]
        taken := [⟨unmailedJob payload, some false⟩] } .sound (.retry 0) =
      { r with
        pending := [], queue.waiting := [], taken := [⟨unmailedJob payload, some false⟩]
        losses := r.losses ++ [⟨.text unmailed.id, .exhausted⟩] } := by
    rw [step_retry_sound rfl last]
    simp only [Queue.release, unmailedJob, List.erase_cons_head, idle]
  rw [run, attempted]
  simp only [List.foldl_cons, List.foldl_nil, queued, taken, handled, retried]

/-- The rule of `unmailable` fires, and this cannot be mailed. -/
def unhandled : List (Act × Link) := [checked unmailable] ++ attempted

theorem unmailable_fires : ((quiet 1).run [checked unmailable]).pending = [unmailedFiring] ∧
    ((quiet 1).run [checked unmailable]).fired = [leftBehind.id] ∧
      ((quiet 1).run [checked unmailable]).history = [leftBehind] :=
  ⟨rfl, by decide +kernel, by decide +kernel⟩

theorem unmailed_written : ∃ payload,
    Broker.payload (.text unmailed.id) unmailed.toValue 0 = .ok payload := by
  have writable : (Broker.payload (.text unmailed.id) unmailed.toValue 0).toOption.isSome := by
    decide +kernel
  cases printed : Broker.payload (.text unmailed.id) unmailed.toValue 0 with
  | error fault =>
      rw [printed] at writable
      cases writable
  | ok payload => exact ⟨payload, rfl⟩

theorem unhandled_leaves : ((quiet 1).run unhandled).pending.length = 0 ∧
    ((quiet 1).run unhandled).fired = [leftBehind.id] ∧
      ((quiet 1).run unhandled).queue.contents = [] ∧
        ((quiet 1).run unhandled).history = [leftBehind] := by
  obtain ⟨pending, fired, history⟩ := unmailable_fires
  obtain ⟨payload, written⟩ := unmailed_written
  have after := attempted_exhausts (r := (quiet 1).run [checked unmailable]) rfl rfl rfl pending
    written (Int.le_refl 1)
  rw [unhandled, run, List.foldl_append, ← run, ← run, after]
  exact ⟨rfl, fired, rfl, history⟩

theorem not_inHand_leftBehind (empty : r.queue.contents = []) : ¬ r.InHand leftBehind := by
  rintro ((notified | reported) | ⟨text, member, -⟩)
  · cases notified
  · cases reported
  · rw [← Queue.contents, empty] at member
    cases member

/-- **Firings can be lost without a trace.**  A tick is over, and the row that it has added has
neither an outcome nor a job, for the command that was to queue its notification was lost; and the
same comes about without any lost command, if handling its job fails as often as it is attempted. -/
theorem firing_lost :
    (¬ ∀ acts, ((quiet 3).run acts).pending.length = 0 → ∀ row ∈ ((quiet 3).run acts).history,
        row.id ∈ ((quiet 3).run acts).fired → ((quiet 3).run acts).InHand row) ∧
      ¬ ∀ acts : List (Act × Link), (∀ act ∈ acts, act.2 = .sound) →
        ((quiet 1).run acts).pending.length = 0 → ∀ row ∈ ((quiet 1).run acts).history,
          row.id ∈ ((quiet 1).run acts).fired → ((quiet 1).run acts).InHand row := by
  constructor
  · intro all
    obtain ⟨ended, fired, empty, history⟩ := unqueued_leaves
    exact not_inHand_leftBehind empty
      (all unqueued ended leftBehind (by simp [history]) (by simp [fired]))
  · intro all
    obtain ⟨ended, fired, empty, history⟩ := unhandled_leaves
    exact not_inHand_leftBehind empty
      (all unhandled (by decide) ended leftBehind (by simp [history]) (by simp [fired]))

end Relay

end LogAlert
