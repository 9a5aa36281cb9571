/-
# LogAlert.Proofs.Broker.Reservation -- whatever text waits at the head of a queue

Anybody can put a text on a queue, and whoever reserves the next job has to cope with it.  A text is
that of a job if it is an `Envelope`, and if what it gives as the count of attempts stands for an
integer; any other text is malformed and is taken from the queue.  There is one exception: an
infinite count (`CountsWithoutEnd`) is neither a count nor malformed, and reserving fails.

Main statement: `reserve_settles_iff`.  `reserve_stopped_by_infinity` shows the exception.
-/
import LogAlert.Proofs.Broker.Accounting
import LogAlert.Proofs.Broker.Taken

set_option autoImplicit false

namespace LogAlert

open List

/-- Only the infinite numbers are refused as infinite. -/
theorem Value.toInt_eq_infinite {v : Value} :
    v.toInt = .error .infiniteInteger ↔ ∃ negative, v = .float (.infinite negative) := by
  constructor
  · intro refused
    cases v with
    | float x =>
        cases x with
        | infinite negative => exact ⟨negative, rfl⟩
        | finite | nan => cases refused
    | text s =>
        rw [toInt] at refused
        split at refused <;> cases refused
    | _ => cases refused
  · rintro ⟨negative, rfl⟩
    rfl

namespace Broker

/-- The text holds an identifier, data, and a count of attempts, which is zero if it is missing. -/
def Envelope (text : String) (id data count : Value) : Prop :=
  ∃ entries, Json.read? (some Text.digitLimit) text = some (.map entries) ∧
    Value.at? entries "id" = some id ∧ Value.at? entries "data" = some data ∧
    (Value.at? entries "attempts").getD (.int 0) = count

/-- The text is an envelope with an infinite count. -/
def CountsWithoutEnd (text : String) : Prop :=
  ∃ id data negative, Envelope text id data (.float (.infinite negative))

/-- The text is no envelope, or what should be the count is no number at all. -/
def Malformed (text : String) : Prop :=
  ∀ id data count, Envelope text id data count →
    ∃ fault, count.toInt = .error fault ∧ fault ≠ .infiniteInteger

variable {text : String} {id data count : Value}

theorem Envelope.unique {id' data' count' : Value} (envelope : Envelope text id data count)
    (another : Envelope text id' data' count') : id' = id ∧ data' = data ∧ count' = count := by
  obtain ⟨entries, read, own, content, number⟩ := envelope
  obtain ⟨entries', read', own', content', number'⟩ := another
  cases read.symm.trans read'
  exact ⟨Option.some.inj (own'.symm.trans own), Option.some.inj (content'.symm.trans content),
    number'.symm.trans number⟩

theorem Envelope.ofPayload_eq (envelope : Envelope text id data count) :
    Job.ofPayload text =
      (attemptsOf count).map fun attempts => attempts.map fun n => ⟨id, data, n, text⟩ := by
  obtain ⟨entries, read, own, content, rfl⟩ := envelope
  simp only [Job.ofPayload, read, own, content]
  cases attemptsOf ((Value.at? entries "attempts").getD (.int 0)) <;> rfl

theorem attemptsOf_eq_none {fault : Fault} (refused : count.toInt = .error fault)
    (finite : fault ≠ .infiniteInteger) : attemptsOf count = .ok none := by
  unfold attemptsOf
  split
  · rename_i number
    cases refused.symm.trans number
  · rename_i endless
    exact absurd (Except.error.inj (refused.symm.trans endless)) finite
  · rfl

theorem ofPayload_of_noEnvelope (none : ∀ id data count, ¬ Envelope text id data count) :
    Job.ofPayload text = .ok Option.none := by
  unfold Job.ofPayload
  split
  · rename_i entries read
    split
    · rename_i id data own content
      exact absurd ⟨entries, read, own, content, rfl⟩ (none id data _)
    · rfl
  · rfl

/-- **What a text is taken for.** -/
theorem ofPayload_cases (text : String) :
    (∃ id data count n, Envelope text id data count ∧ count.toInt = .ok n ∧
        Job.ofPayload text = .ok (some ⟨id, data, n, text⟩)) ∨
      (CountsWithoutEnd text ∧ Job.ofPayload text = .error .infiniteInteger) ∨
      (Malformed text ∧ Job.ofPayload text = .ok none) := by
  by_cases some : ∃ id data count, Envelope text id data count
  · obtain ⟨id, data, count, envelope⟩ := some
    have read := envelope.ofPayload_eq
    cases number : count.toInt with
    | ok n =>
        simp only [attemptsOf, number] at read
        exact .inl ⟨id, data, count, n, envelope, number, read⟩
    | error fault =>
        by_cases endless : fault = .infiniteInteger
        · subst endless
          obtain ⟨negative, rfl⟩ := Value.toInt_eq_infinite.1 number
          exact .inr (.inl ⟨⟨id, data, negative, envelope⟩, read⟩)
        · refine .inr (.inr ⟨fun _ _ _ another => ?_, ?_⟩)
          · obtain ⟨rfl, rfl, rfl⟩ := envelope.unique another
            exact ⟨fault, number, endless⟩
          · rw [read, attemptsOf_eq_none number endless]
            rfl
  · have none : ∀ id data count, ¬ Envelope text id data count :=
      fun id data count envelope => some ⟨id, data, count, envelope⟩
    exact .inr (.inr ⟨fun id data count envelope => absurd envelope (none id data count),
      ofPayload_of_noEnvelope none⟩)

theorem CountsWithoutEnd.not_malformed (endless : CountsWithoutEnd text) : ¬ Malformed text := by
  obtain ⟨id, data, negative, envelope⟩ := endless
  intro malformed
  obtain ⟨fault, refused, finite⟩ := malformed id data _ envelope
  exact finite (Except.error.inj refused).symm

end Broker

namespace Queue

/-- What a reservation may make of the text at the head of a queue over a sound connection: it yields
the job that the text says, and the text is being processed; or the text is malformed and gone.  All
other texts are left where they were, those that wait also in their order. -/
inductive Settles (queue : Queue) (text : String) (rest : List String) :
    Except QueueError Reserved × Queue × Link → Prop where
  | job {id data count : Value} {attempts : Int} (envelope : Broker.Envelope text id data count)
      (number : count.toInt = .ok attempts) :
    Settles queue text rest (.ok (.job ⟨id, data, attempts, text⟩),
      { queue with waiting := rest, processing := queue.processing ++ [text] }, .sound)
  | dropped {processing : List String} (malformed : Broker.Malformed text)
      (others : processing ~ queue.processing) :
    Settles queue text rest (.ok .dropped, { queue with waiting := rest, processing }, .sound)

variable {queue : Queue} {text : String} {rest : List String}

/-- A reservation moves the text and then reads it. -/
theorem reserve_cons (waiting : queue.waiting = text :: rest) :
    queue.reserve .sound =
      { queue with waiting := rest, processing := queue.processing ++ [text] }.openPayload .sound
        text := by
  simp only [reserve, Link.send_sound, waiting, Broker.payload?_ofPayload]

theorem erase_concat_perm (texts : List String) (text : String) :
    (texts ++ [text]).erase text ~ texts := by
  have whole : texts ++ [text] ~ text :: texts := perm_append_singleton text texts
  simpa using whole.erase text

/-- **A text at the head of a queue breaks a reservation only if it counts without end.**  Over a
sound connection, and whatever the text is, a reservation does not fail: it yields the job that the
text says, with an integer for the attempts, or drops the text if it is malformed; the other texts
are left as they are.  This is so exactly if the text is not an envelope with an infinite count.
Otherwise the reservation fails, and the text is among those being processed. -/
theorem reserve_settles_iff (queue : Queue) (text : String) (rest : List String)
    (waiting : queue.waiting = text :: rest) :
    (queue.Settles text rest (queue.reserve .sound) ↔ ¬ Broker.CountsWithoutEnd text) ∧
      (Broker.CountsWithoutEnd text → queue.reserve .sound = (.error (.fault .infiniteInteger),
        { queue with waiting := rest, processing := queue.processing ++ [text] }, .sound)) := by
  rw [reserve_cons waiting, openPayload]
  obtain ⟨id, data, count, n, envelope, number, read⟩ | ⟨endless, read⟩ | ⟨malformed, read⟩ :=
    Broker.ofPayload_cases text
  · have counts : ¬ Broker.CountsWithoutEnd text := by
      rintro ⟨_, _, negative, another⟩
      obtain ⟨-, -, rfl⟩ := envelope.unique another
      cases number
    rw [read]
    exact ⟨iff_of_true (.job envelope number) counts, fun endless => absurd endless counts⟩
  · rw [read]
    refine ⟨iff_of_false (fun settles => ?_) (not_not.2 endless), fun _ => rfl⟩
    cases settles
  · have counts : ¬ Broker.CountsWithoutEnd text := fun endless => endless.not_malformed malformed
    rw [read]
    refine ⟨iff_of_true ?_ counts, fun endless => absurd endless counts⟩
    exact .dropped malformed (erase_concat_perm queue.processing text)

/-- A queue with this text at its head, which is also left from an earlier worker. -/
def headedBy (text : String) : Queue :=
  { name := "notifications", maxAttempts := 3, asOctets := false
    waiting := [text, "later"], processing := ["earlier", text, "last"] }

/-- A list is no job, and it is dropped. -/
theorem reserve_settles_iff_list : (headedBy "[]").waiting = "[]" :: ["later"] ∧
    (headedBy "[]").Settles "[]" ["later"] ((headedBy "[]").reserve .sound) ∧
      ((headedBy "[]").reserve .sound).2.1.processing = ["earlier", "last", "[]"] := by
  obtain ⟨settles, fails⟩ := reserve_settles_iff (headedBy "[]") "[]" ["later"] rfl
  have succeeds : ((headedBy "[]").reserve .sound).1.toBool = true := by decide +kernel
  have finite : ¬ Broker.CountsWithoutEnd "[]" := by
    intro endless
    rw [fails endless] at succeeds
    cases succeeds
  exact ⟨rfl, settles.2 finite, by decide +kernel⟩

/-- An envelope with an infinite count. -/
def endless : String := "\x7b\"id\": \"a\", \"data\": \x7b\x7d, \"attempts\": Infinity\x7d"

/-- **A text can stop its reservation**: that of a job whose count of attempts is infinite. -/
theorem reserve_stopped_by_infinity :
    ¬ ∀ (queue : Queue) (text : String) (rest : List String), queue.waiting = text :: rest →
      queue.Settles text rest (queue.reserve .sound) := by
  intro settles
  have failed : ((headedBy endless).reserve .sound).1.toBool = false := by decide +kernel
  generalize same : (headedBy endless).reserve .sound = outcome at failed
  cases same ▸ settles (headedBy endless) endless ["later"] rfl <;> cases failed

end Queue

end LogAlert
