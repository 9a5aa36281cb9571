/-
# LogAlert.Proofs.Delivery.Outcomes -- what handling a notification does to the history

The outcome of a notification is written into the row of its firing before the ledger hears of the
delivery.  So whoever handles the notification of a row, and whatever becomes of the commands that
are sent meanwhile: if handling went through, the row has its outcome, or the ledger knew the
notification already; and the ledger learns of a delivery only once the row has its outcome.  That
is `Worker.handle_handled`, and no more is said of mail, webhooks and the clock than that.
-/
import LogAlert.Proofs.Delivery.Identity
import LogAlert.Proofs.Delivery.Ledger
import LogAlert.Service

set_option autoImplicit false

namespace LogAlert

/-- The notification of the firing was delivered, or it is known why not. -/
def HistoryRow.HasOutcome (row : HistoryRow) : Prop := row.notified = true ∨ row.error.isSome = true

namespace Store

/-- All rows of this name have an outcome. -/
def Settled (history : List HistoryRow) (id : String) : Prop :=
  ∀ row ∈ history, row.id = id → row.HasOutcome

theorem hasOutcome_withOutcome (row : HistoryRow) (error : Option String) :
    LogAlert.HistoryRow.HasOutcome (HistoryRow.withOutcome row error) := by
  cases error with
  | none => exact .inl rfl
  | some text => exact .inr rfl

variable {store : Store} {id other : String}

theorem markNotified_history (store : Store) (id : String) (error : Option String) :
    (store.markNotified id error).2.history = store.history.map fun row =>
      if row.id = id then HistoryRow.withOutcome row error else row := by
  unfold markNotified
  split
  · rfl
  · rename_i absent
    have foreign : ∀ row ∈ store.history, row.id ≠ id := fun row stored own =>
      absent (List.any_eq_true.2 ⟨row, stored, decide_eq_true own⟩)
    exact ((List.map_congr_left fun row stored => if_neg (foreign row stored)).trans
      (List.map_id' _)).symm

theorem markNotified_names (store : Store) (id : String) (error : Option String) :
    (store.markNotified id error).2.history.map (·.id) = store.history.map (·.id) := by
  rw [markNotified_history, List.map_map]
  refine List.map_congr_left fun row stored => ?_
  rw [Function.comp]
  split <;> rfl

/-- Writing an outcome settles the rows of the name, and unsettles none. -/
theorem settled_markNotified {error : Option String}
    (settled : other = id ∨ Settled store.history other) :
    Settled (store.markNotified id error).2.history other := by
  rw [markNotified_history]
  intro row member own
  obtain ⟨old, stored, rfl⟩ := List.mem_map.1 member
  by_cases isMarked : old.id = id
  · rw [if_pos isMarked]
    exact hasOutcome_withOutcome old error
  · rw [if_neg isMarked] at own ⊢
    rcases settled with rfl | settled
    · exact absurd own isMarked
    · exact settled old stored own

end Store

namespace Worker

open Store (Settled settled_markNotified markNotified_names)

variable {worker : Worker} {times : Times} {link : Link} {n : Notification} {id : String}
variable {job : Broker.Job}

/-! ## What handling a job does -/

/-- Handling the notification of a row leaves names alone and unsettles nothing.  If it went
through, the ledger knew the notification or the row has its outcome now; and no other digest has
come into the ledger than that of a notification whose row has its outcome. -/
structure Handled (id key : String) (through : Bool) (before after : State) : Prop where
  ids : after.ids = before.ids
  names : after.store.history.map (·.id) = before.store.history.map (·.id)
  settled : ∀ other, Settled before.store.history other → Settled after.store.history other
  through : through = true →
    before.ledger.Knows (Digest.ofKey key) ∨ Settled after.store.history id
  knows : ∀ digest, after.ledger.Knows digest → before.ledger.Knows digest ∨
    digest = Digest.ofKey key ∧ Settled after.store.history id

theorem settle_text (store : Store) (named : id ≠ "") (failure : Option String) :
    settle store (.text id) failure = .ok (store.markNotified id failure).2 := by
  have truthy : (Value.text id).truthy = true := bne_iff_ne.2 named
  rw [settle, if_pos truthy]
  rfl

theorem isKnown_knows (worker : Worker) (ledger : Ledger) (link : Link) (now : Time.Instant)
    (n : Notification) :
    ((worker.isKnown ledger link now n).1 = true → ledger.Knows (Digest.ofKey n.id)) ∧
      ∀ digest, (worker.isKnown ledger link now n).2.1.Knows digest → ledger.Knows digest := by
  unfold isKnown
  split
  · exact ledger.delivered_knows link now n.id
  · exact ⟨nofun, fun _ knows => knows⟩

theorem note_knows {ledger : Ledger} {now : Time.Instant} {failure : Option String}
    {digest : String} (knows : (worker.note ledger link now n failure).1.Knows digest) :
    ledger.Knows digest ∨ digest = Digest.ofKey n.id := by
  unfold note at knows
  split at knows
  · exact Ledger.record_knows knows
  · exact .inl knows

theorem process_handled (worker : Worker) (times : Times) (link : Link)
    (state : State) (named : id ≠ "") (own : n.history = .text id) :
    Handled id n.id (worker.process times n link state).1.toBool state
      (worker.process times n link state).2.2 := by
  obtain ⟨isKnown, kept⟩ := isKnown_knows worker state.ledger link times.asked n
  unfold process
  generalize worker.isKnown state.ledger link times.asked n = answer at isKnown kept ⊢
  obtain ⟨_ | _, ledger, later⟩ := answer
  · simp only [Bool.false_eq_true, if_false]
    generalize worker.send n times state.outside = sending
    obtain ⟨fault | failure, outside⟩ := sending
    · exact ⟨rfl, rfl, fun _ settled => settled, nofun,
        fun digest knows => .inl (kept digest knows)⟩
    · have marked : Settled (state.store.markNotified id failure).2.history id :=
        settled_markNotified (.inl rfl)
      simp only [own, settle_text state.store named]
      refine ⟨rfl, markNotified_names .., fun _ settled => settled_markNotified (.inr settled),
        fun _ => .inr marked, fun digest knows => ?_⟩
      rcases note_knows knows with old | new
      · exact .inl (kept digest old)
      · exact .inr ⟨new, marked⟩
  · exact ⟨rfl, rfl, fun _ settled => settled, fun _ => .inl (isKnown rfl),
      fun digest knows => .inl (kept digest knows)⟩

theorem handle_handled (worker : Worker) (times : Times) (link : Link)
    (state : State) (named : id ≠ "") (keyed : n.id ≠ "") (own : n.history = .text id)
    (data : job.data = n.toValue) :
    Handled id n.id (worker.handle times job link state).1 state
      (worker.handle times job link state).2.2 := by
  unfold handle
  rw [data, Notification.ofValue_toValue keyed]
  exact process_handled worker times link state named own

end Worker

end LogAlert
