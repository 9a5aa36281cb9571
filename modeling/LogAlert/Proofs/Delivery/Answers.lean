/-
# LogAlert.Proofs.Delivery.Answers -- what a ledger answers in the course of its uses

A ledger is used over a connection that may lose any command, and the uses (`Use`) come in the order
of the clock.  What is recorded while the command arrives is kept by the broker, and what is recorded
while it is lost is written into memory; and where a ledger is asked depends in the same way on the
fate of that command.  So a ledger is two ledgers, each of which sees the uses of one fate only:

* memory remembers a digest for a window from when it was last recorded (`lastRecord?`);
* the broker keeps the entry that it has, so that a record which falls into a window that is open
  opens no new one (`lastOpening?`).

`Follows` says that after uses a ledger remembers exactly this, `Follows.step` that one use keeps it
so, and `follows_after` that a run of uses does.  From it come the two results of this module:
`delivered_of_recorded_alike` for a connection that loses commands, and `answers_agree_iff`, which
compares a ledger kept by the broker with one in memory.
-/
import LogAlert.Proofs.Delivery.Ledger
import Mathlib.Data.List.Induction

set_option autoImplicit false

namespace LogAlert.Ledger

/-- One use of a ledger: a key is recorded, or asked for. -/
structure Use where
  /-- The key is recorded. -/
  records : Bool
  key : String
  now : Time.Instant
  /-- The connection, as the use finds it. -/
  link : Link
deriving DecidableEq, Repr

namespace Use

/-- The name under which the ledger has the key. -/
def digest (use : Use) : String := Digest.ofKey use.key

/-- The command of the use is carried out. -/
def arrives (use : Use) : Bool := use.link.send.1

/-- A delivery is recorded under this digest. -/
def recordsAs (use : Use) (digest : String) : Bool := use.records && use.digest = digest

/-- The use is one of the broker, not of memory. -/
def atBroker (isShared : Bool) (use : Use) : Bool := isShared && use.arrives

end Use

/-- What the ledger answers, if it is asked, and what the use makes of it. -/
def perform (ledger : Ledger) (use : Use) : Option Bool × Ledger :=
  if use.records then (none, (ledger.record use.link use.now use.key).1)
  else
    let (answer, later, _) := ledger.delivered use.link use.now use.key
    (some answer, later)

/-- The ledger after these uses. -/
def after (ledger : Ledger) (uses : List Use) : Ledger :=
  uses.foldl (fun ledger use => (ledger.perform use).2) ledger

/-- What the ledger answers in the course of these uses. -/
def answers : Ledger → List Use → List (Option Bool)
  | _, [] => []
  | ledger, use :: rest => (ledger.perform use).1 :: answers (ledger.perform use).2 rest

/-- The clock does not go back, and the uses are made when a second begins. -/
structure InOrder (uses : List Use) : Prop where
  whole : ∀ use ∈ uses, use.now.IsWhole
  sorted : uses.Pairwise fun earlier later => earlier.now ≤ later.now

theorem inOrder_iff {uses : List Use} : InOrder uses ↔ (∀ use ∈ uses, use.now.IsWhole) ∧
    uses.Pairwise fun earlier later => earlier.now ≤ later.now :=
  ⟨fun order => ⟨order.whole, order.sorted⟩, fun ⟨whole, sorted⟩ => ⟨whole, sorted⟩⟩

instance (uses : List Use) : Decidable (InOrder uses) := decidable_of_iff _ inOrder_iff.symm

variable {ledger : Ledger} {window : Int} {isShared : Bool} {now later since : Time.Instant}
variable {digest other : String} {use record ask : Use} {uses before rest : List Use}

theorem InOrder.of_append (order : InOrder (before ++ rest)) : InOrder before :=
  ⟨fun use member => order.whole use (List.mem_append_left _ member),
    (List.pairwise_append.1 order.sorted).1⟩

theorem InOrder.filter (order : InOrder uses) (seen : Use → Bool) : InOrder (uses.filter seen) :=
  ⟨fun use member => order.whole use (List.mem_filter.1 member).1, order.sorted.filter seen⟩

theorem InOrder.le (order : InOrder (before ++ use :: rest)) (member : record ∈ before) :
    record.now ≤ use.now :=
  (List.pairwise_append.1 order.sorted).2.2 record member use List.mem_cons_self

theorem InOrder.whole_of_split (order : InOrder (before ++ use :: rest)) : use.now.IsWhole :=
  order.whole use (List.mem_append_right _ List.mem_cons_self)

/-! ## Windows -/

/-- There is such an instant, less than a window ago. -/
def Recent (window : Int) (now : Time.Instant) (last : Option Time.Instant) : Prop :=
  ∃ since, last = some since ∧ Within window since now

@[simp] theorem not_recent_none : ¬ Recent window now none := by
  simp [Recent]

@[simp] theorem recent_some : Recent window now (some since) ↔ Within window since now := by
  simp [Recent]

instance (window : Int) (now : Time.Instant) (last : Option Time.Instant) :
    Decidable (Recent window now last) :=
  match last with
  | none => .isFalse not_recent_none
  | some since => decidable_of_iff (Within window since now) recent_some.symm

/-- When the last use was made that counts, which may depend on when that was before. -/
def latest (counts : Option Time.Instant → Use → Bool) (uses : List Use) : Option Time.Instant :=
  uses.foldl (fun last use => if counts last use then some use.now else last) none

/-- When the digest was last recorded. -/
def lastRecord? (digest : String) (uses : List Use) : Option Time.Instant :=
  latest (fun _ use => use.recordsAs digest) uses

/-- When the last window of the digest was opened: by a record that falls into none. -/
def lastOpening? (window : Int) (digest : String) (uses : List Use) : Option Time.Instant :=
  latest (fun opening use => use.recordsAs digest && !decide (Recent window use.now opening)) uses

variable {counts : Option Time.Instant → Use → Bool}

theorem Within.of_le {since' : Time.Instant} (within : Within window since now)
    (passes : since ≤ since') : Within window since' now := by
  have order : since.micros ≤ since'.micros := passes
  unfold Within at within ⊢
  omega

theorem Recent.earlier {last : Option Time.Instant} (recent : Recent window later last)
    (passes : now ≤ later) : Recent window now last := by
  obtain ⟨since, found, within⟩ := recent
  have order : now.micros ≤ later.micros := passes
  refine ⟨since, found, ?_⟩
  unfold Within at within ⊢
  omega

theorem latest_concat (counts : Option Time.Instant → Use → Bool) (uses : List Use) (use : Use) :
    latest counts (uses ++ [use]) =
      if counts (latest counts uses) use then some use.now else latest counts uses := by
  unfold latest
  rw [List.foldl_append]
  rfl

theorem lastRecord?_concat (digest : String) (uses : List Use) (use : Use) :
    lastRecord? digest (uses ++ [use]) =
      if use.recordsAs digest = true then some use.now else lastRecord? digest uses :=
  latest_concat _ uses use

theorem lastOpening?_concat (window : Int) (digest : String) (uses : List Use) (use : Use) :
    lastOpening? window digest (uses ++ [use]) =
      if use.recordsAs digest = true ∧
          ¬ Recent window use.now (lastOpening? window digest uses) then some use.now
      else lastOpening? window digest uses := by
  unfold lastOpening?
  rw [latest_concat]
  simp only [Bool.and_eq_true, Bool.not_eq_true', decide_eq_false_iff_not]

theorem lastRecord?_filter_concat (digest : String) (seen : Use → Bool) (uses : List Use)
    (use : Use) : lastRecord? digest ((uses ++ [use]).filter seen) =
      if seen use = true ∧ use.recordsAs digest = true then some use.now
      else lastRecord? digest (uses.filter seen) := by
  rw [List.filter_append]
  by_cases isSeen : seen use = true
  · simp [isSeen, lastRecord?_concat]
  · simp [isSeen]

theorem lastOpening?_filter_concat (window : Int) (digest : String) (seen : Use → Bool)
    (uses : List Use) (use : Use) : lastOpening? window digest ((uses ++ [use]).filter seen) =
      if seen use = true ∧ use.recordsAs digest = true ∧
          ¬ Recent window use.now (lastOpening? window digest (uses.filter seen)) then
        some use.now
      else lastOpening? window digest (uses.filter seen) := by
  rw [List.filter_append]
  by_cases isSeen : seen use = true
  · simp [isSeen, lastOpening?_concat]
  · simp [isSeen]

/-- The latest instant is that of one of the uses. -/
theorem exists_of_latest (found : latest counts uses = some since) :
    ∃ use ∈ uses, (∃ last, counts last use = true) ∧ use.now = since := by
  induction uses using List.reverseRecOn generalizing since with
  | nil => cases found
  | append_singleton uses use ih =>
      rw [latest_concat] at found
      split at found
      · rename_i counted
        cases found
        exact ⟨use, by simp, ⟨_, counted⟩, rfl⟩
      · obtain ⟨earlier, member, counted, same⟩ := ih found
        exact ⟨earlier, List.mem_append_left _ member, counted, same⟩

/-- Further uses make the latest instant later, if they change it. -/
theorem latest_append (found : latest counts before = some since)
    (passes : ∀ use ∈ rest, since ≤ use.now) :
    ∃ since', latest counts (before ++ rest) = some since' ∧ since ≤ since' := by
  induction rest using List.reverseRecOn with
  | nil => exact ⟨since, by simpa using found, le_refl _⟩
  | append_singleton rest use ih =>
      obtain ⟨since', found', order⟩ := ih fun use member =>
        passes use (List.mem_append_left _ member)
      rw [← List.append_assoc, latest_concat, found']
      split
      · exact ⟨use.now, rfl, passes use (by simp)⟩
      · exact ⟨since', rfl, order⟩

/-- If a use counts, the latest instant is not before it. -/
theorem le_latest (order : InOrder (before ++ use :: rest))
    (counted : counts (latest counts before) use = true) :
    ∃ since, latest counts (before ++ use :: rest) = some since ∧ use.now ≤ since := by
  have found : latest counts (before ++ [use]) = some use.now := by
    rw [latest_concat, if_pos counted]
  have behind : ∀ later ∈ rest, use.now ≤ later.now :=
    (List.pairwise_cons.1 (List.pairwise_append.1 order.sorted).2.1).1
  have extended := latest_append found behind
  rwa [List.append_assoc, List.singleton_append] at extended

theorem le_lastRecord? (order : InOrder uses) (member : record ∈ uses)
    (own : record.recordsAs digest = true) :
    ∃ since, lastRecord? digest uses = some since ∧ record.now ≤ since := by
  obtain ⟨before, rest, rfl⟩ := List.append_of_mem member
  exact le_latest order own

theorem le_lastOpening? (order : InOrder (before ++ record :: rest))
    (own : record.recordsAs digest = true)
    (closed : ¬ Recent window record.now (lastOpening? window digest before)) :
    ∃ since, lastOpening? window digest (before ++ record :: rest) = some since ∧
      record.now ≤ since := by
  refine le_latest order ?_
  rw [own, Bool.true_and, Bool.not_eq_true', decide_eq_false_iff_not]
  exact closed

/-- A window that is open was opened by a record. -/
theorem recent_lastRecord? (order : InOrder uses)
    (recent : Recent window now (lastOpening? window digest uses)) :
    Recent window now (lastRecord? digest uses) := by
  obtain ⟨since, opened, within⟩ := recent
  obtain ⟨record, member, ⟨last, counted⟩, rfl⟩ := exists_of_latest opened
  have own : record.recordsAs digest = true := (Bool.and_eq_true_iff.1 counted).1
  obtain ⟨last, found, passes⟩ := le_lastRecord? order member own
  exact ⟨last, found, within.of_le passes⟩

/-! ## One use -/

/-- **All that a use does.** -/
theorem perform_eq (ledger : Ledger) (use : Use) :
    ledger.perform use =
      match use.records, use.atBroker ledger.isShared with
      | true, true => (none, ledger.keep use.now use.digest)
      | true, false => (none, ledger.memorize use.digest (wholeSeconds use.now))
      | false, true => (some (ledger.isKept use.now use.digest), ledger)
      | false, false => (some (ledger.isRemembered use.now use.digest).1,
          ledger.forget (wholeSeconds use.now)) := by
  unfold perform record delivered Use.atBroker Use.arrives Use.digest
  cases use.records <;> cases ledger.isShared <;> cases use.link.send with
  | mk arrives link => cases arrives <;> rfl

theorem perform_same (ledger : Ledger) (use : Use) :
    (ledger.perform use).2.window = ledger.window ∧
      (ledger.perform use).2.isShared = ledger.isShared := by
  rw [perform_eq]
  split
  · exact (keep_same ledger _ _).symm
  · exact (memorize_same ledger _ _).symm
  · exact ⟨rfl, rfl⟩
  · exact ⟨rfl, rfl⟩

/-- The broker keeps what it has, and what is recorded with it unless it has that already. -/
theorem kept_perform (passes : use.now ≤ later) : (ledger.perform use).2.Kept later digest ↔
    ledger.Kept later digest ∨ use.atBroker ledger.isShared = true ∧
      use.recordsAs digest = true ∧ ¬ ledger.Kept use.now digest ∧
        Within ledger.window use.now later := by
  rw [perform_eq]
  unfold Use.recordsAs
  cases use.records <;> cases use.atBroker ledger.isShared
  · simp only [Bool.false_and, Bool.false_eq_true, false_and, or_false]
    rfl
  · simp
  · have same : (ledger.memorize use.digest (wholeSeconds use.now)).entries = ledger.entries := by
      unfold memorize
      split <;> rfl
    simp [Kept, same]
  · simp only [kept_keep passes]
    by_cases own : digest = use.digest
    · subst own
      simp
    · simp [own, Ne.symm own]

/-- Memory recalls what it did, but a record that is made there takes the place of an older one. -/
theorem recalled_perform (whole : use.now.IsWhole) (whole' : later.IsWhole)
    (passes : use.now ≤ later) : (ledger.perform use).2.Recalled later digest ↔
      if use.atBroker ledger.isShared = false ∧ use.recordsAs digest = true then
        Within ledger.window use.now later
      else ledger.Recalled later digest := by
  rw [perform_eq]
  unfold Use.recordsAs
  cases use.records <;> cases use.atBroker ledger.isShared
  · simp [recalled_forget passes]
  · simp
  · simp [recalled_memorize whole whole', eq_comm]
  · have same : (ledger.keep use.now use.digest).memory = ledger.memory := by
      unfold keep
      split <;> rfl
    simp [Recalled, same, (keep_same ledger _ _).2]

/-! ## What a ledger remembers -/

/-- After uses up to now the broker keeps what was last opened by uses of its own, and memory
recalls what was last recorded by the others; each for the length of the window. -/
structure Follows (ledger : Ledger) (window : Int) (isShared : Bool) (now : Time.Instant)
    (uses : List Use) : Prop where
  lasts : ledger.window = window
  shared : ledger.isShared = isShared
  kept : ∀ later, now ≤ later → ∀ digest, (ledger.Kept later digest ↔
    Recent window later (lastOpening? window digest (uses.filter (·.atBroker isShared))))
  recalled : ∀ later, later.IsWhole → now ≤ later → ∀ digest, (ledger.Recalled later digest ↔
    Recent window later (lastRecord? digest (uses.filter fun use => !use.atBroker isShared)))

namespace Follows

theorem start (window : Int) (isShared : Bool) (now : Time.Instant) :
    Follows (.empty window isShared) window isShared now [] := by
  refine ⟨rfl, rfl, ?_, ?_⟩
  · intro later _ digest
    constructor
    · rintro ⟨entry, member, -⟩
      cases member
    · rintro ⟨since, opened, -⟩
      cases opened
  · intro later _ _ digest
    constructor
    · rintro ⟨entry, member, -⟩
      cases member
    · rintro ⟨since, recorded, -⟩
      cases recorded

theorem mono (follows : Follows ledger window isShared now uses) (passes : now ≤ later) :
    Follows ledger window isShared later uses :=
  ⟨follows.lasts, follows.shared, fun last behind => follows.kept last (passes.trans behind),
    fun last whole behind => follows.recalled last whole (passes.trans behind)⟩

/-- **One use.** -/
theorem step (follows : Follows ledger window isShared now uses) (whole : use.now.IsWhole)
    (passes : now ≤ use.now) :
    Follows (ledger.perform use).2 window isShared use.now (uses ++ [use]) := by
  obtain ⟨rfl, rfl, kept, recalled⟩ := follows.mono passes
  obtain ⟨lasts, shared⟩ := ledger.perform_same use
  refine ⟨lasts, shared, ?_, ?_⟩
  · intro later behind digest
    rw [kept_perform behind, kept use.now (le_refl _), kept later behind,
      lastOpening?_filter_concat]
    split
    · rename_i opens
      obtain ⟨isSeen, own, closed⟩ := opens
      rw [recent_some]
      constructor
      · rintro (held | ⟨-, -, -, within⟩)
        · exact absurd (held.earlier behind) closed
        · exact within
      · intro within
        exact .inr ⟨isSeen, own, closed, within⟩
    · rename_i opensNot
      constructor
      · rintro (held | ⟨isSeen, own, closed, -⟩)
        · exact held
        · exact absurd ⟨isSeen, own, closed⟩ opensNot
      · exact .inl
  · intro later whole' behind digest
    rw [recalled_perform whole whole' behind, recalled later whole' behind,
      lastRecord?_filter_concat]
    simp only [Bool.not_eq_true']
    split
    · rw [recent_some]
    · exact Iff.rfl

end Follows

/-- **A run of uses.** -/
theorem follows_after (window : Int) (isShared : Bool) (order : InOrder uses)
    (passed : ∀ use ∈ uses, use.now ≤ now) :
    Follows ((empty window isShared).after uses) window isShared now uses := by
  induction uses using List.reverseRecOn generalizing now with
  | nil => exact .start window isShared now
  | append_singleton uses use ih =>
      have before := ih order.of_append fun record member => order.le member
      have one := before.step order.whole_of_split (le_refl _)
      have after : (empty window isShared).after (uses ++ [use]) =
          (((empty window isShared).after uses).perform use).2 := by
        unfold Ledger.after
        rw [List.foldl_append]
        rfl
      rw [after]
      exact one.mono (passed use (by simp))

/-! ## What a ledger answers -/

/-- **An answer.** What the ledger says depends on where it looks: the broker has the windows that
were opened by its own uses, and memory the records of the others. -/
theorem answer_iff (window : Int) (isShared : Bool) (order : InOrder (before ++ ask :: rest))
    (asks : ask.records = false) :
    (((empty window isShared).after before).perform ask).1 = some true ↔
      if ask.atBroker isShared = true then
        Recent window ask.now
          (lastOpening? window ask.digest (before.filter (·.atBroker isShared)))
      else Recent window ask.now
        (lastRecord? ask.digest (before.filter fun use => !use.atBroker isShared)) := by
  obtain ⟨lasts, shared, kept, recalled⟩ :=
    follows_after window isShared order.of_append fun record member => order.le member
  rw [perform_eq, asks, shared]
  cases place : ask.atBroker isShared with
  | true =>
      simp only [Option.some.injEq, if_true, isKept_iff]
      exact kept ask.now (le_refl _) ask.digest
  | false =>
      simp only [Option.some.injEq, Bool.false_eq_true, if_false, isRemembered_iff]
      exact recalled ask.now order.whole_of_split (le_refl _) ask.digest

/-! ## A connection that loses commands -/

/-- **A delivery is remembered where it was recorded.**  Over a connection that may lose any command,
a ledger kept by the broker takes a key for delivered only if the key was recorded less than a window
ago by a use of the same fate: both commands were carried out, or both were lost.  And it does so
whenever there was such a record, provided that the broker, if it was the broker's, had no entry of
the key then. -/
theorem delivered_of_recorded_alike (window : Int) (order : InOrder (before ++ [ask]))
    (asks : ask.records = false) :
    ((((empty window true).after before).perform ask).1 = some true →
      ∃ record ∈ before, record.recordsAs ask.digest = true ∧ record.arrives = ask.arrives ∧
        Within window record.now ask.now) ∧
      ∀ earlier record between, before = earlier ++ record :: between →
        record.recordsAs ask.digest = true → record.arrives = ask.arrives →
        Within window record.now ask.now →
        (record.arrives = true →
          ((empty window true).after earlier).isKept record.now ask.digest = false) →
        (((empty window true).after before).perform ask).1 = some true := by
  have answer := answer_iff window true order asks
  simp only [Use.atBroker, Bool.true_and] at answer
  rw [answer]
  constructor
  · intro recent
    split at recent
    · rename_i arrives
      obtain ⟨since, opened, within⟩ := recent
      obtain ⟨record, member, ⟨last, counted⟩, rfl⟩ := exists_of_latest opened
      obtain ⟨inBefore, isSeen⟩ := List.mem_filter.1 member
      exact ⟨record, inBefore, (Bool.and_eq_true_iff.1 counted).1, isSeen.trans arrives.symm, within⟩
    · rename_i lost
      obtain ⟨since, recorded, within⟩ := recent
      obtain ⟨record, member, ⟨last, counted⟩, rfl⟩ := exists_of_latest recorded
      obtain ⟨inBefore, isSeen⟩ := List.mem_filter.1 member
      have alike : record.arrives = ask.arrives := by
        simp only [Bool.not_eq_true', Bool.not_eq_true] at isSeen lost
        rw [isSeen, lost]
      exact ⟨record, inBefore, counted, alike, within⟩
  · rintro earlier record between rfl own alike within fresh
    have ofBefore := order.of_append
    split
    · rename_i arrives
      have isSeen : record.arrives = true := alike.trans arrives
      obtain ⟨-, -, kept, -⟩ := follows_after window true ofBefore.of_append
        fun use member => ofBefore.le member
      have closed : ¬ Recent window record.now
          (lastOpening? window ask.digest (earlier.filter (·.arrives))) := by
        intro recent
        have held := isKept_iff.2 ((kept record.now (le_refl _) ask.digest).2 recent)
        rw [fresh isSeen] at held
        cases held
      have seen := ofBefore.filter (·.arrives)
      rw [List.filter_append, List.filter_cons_of_pos isSeen] at seen ⊢
      obtain ⟨since, opened, passes⟩ := le_lastOpening? seen own closed
      exact ⟨since, opened, within.of_le passes⟩
    · rename_i lost
      have isSeen : (!record.arrives) = true := by simpa [alike] using lost
      have member : record ∈ (earlier ++ record :: between).filter fun use => !use.arrives :=
        List.mem_filter.2 ⟨by simp, isSeen⟩
      obtain ⟨since, recorded, passes⟩ :=
        le_lastRecord? (ofBefore.filter fun use => !use.arrives) member own
      exact ⟨since, recorded, within.of_le passes⟩

/-! ## Two ledgers -/

/-- Two ledgers give the same answers if they do so at every single use. -/
theorem answers_eq_iff (one two : Ledger) (uses : List Use) :
    one.answers uses = two.answers uses ↔ ∀ before use rest, uses = before ++ use :: rest →
      ((one.after before).perform use).1 = ((two.after before).perform use).1 := by
  induction uses generalizing one two with
  | nil =>
      constructor
      · intro _ before use rest split
        exact absurd split.symm (by simp)
      · intro _
        rfl
  | cons first uses ih =>
      rw [answers, answers, List.cons.injEq, ih]
      constructor
      · rintro ⟨head, tail⟩ before use rest split
        cases before with
        | nil =>
            cases split
            exact head
        | cons _ before =>
            cases split
            exact tail before use rest rfl
      · intro each
        exact ⟨each [] first uses rfl, fun before use rest split =>
          each (first :: before) use rest (by rw [split]; rfl)⟩

/-- If nothing is recorded while a window of its digest is open, the last record has opened the last
window. -/
theorem lastOpening?_eq_lastRecord? (unknown : ∀ before record rest,
      uses = before ++ record :: rest → record.records = true →
        ¬ Recent window record.now (lastOpening? window record.digest before)) (digest : String) :
    lastOpening? window digest uses = lastRecord? digest uses := by
  induction uses using List.reverseRecOn with
  | nil => rfl
  | append_singleton uses use ih =>
      have before : lastOpening? window digest uses = lastRecord? digest uses := by
        refine ih fun earlier record rest split => unknown earlier record (rest ++ [use]) ?_
        rw [split]
        simp
      rw [lastOpening?_concat, lastRecord?_concat, before]
      by_cases own : use.recordsAs digest = true
      · obtain ⟨records, named⟩ := Bool.and_eq_true_iff.1 own
        have closed := unknown uses use [] (by simp) records
        rw [of_decide_eq_true named, before] at closed
        rw [if_pos ⟨own, closed⟩, if_pos own]
      · simp [own]

theorem answer_of_records (ledger : Ledger) (records : use.records = true) :
    (ledger.perform use).1 = none := by
  simp [perform, records]

theorem answer_of_asks (ledger : Ledger) (asks : use.records = false) :
    ∃ answer, (ledger.perform use).1 = some answer := by
  simp [perform, asks]

/-- Over a sound connection, a ledger kept by the broker goes by the window opened last. -/
theorem answer_shared_iff (window : Int) (order : InOrder (before ++ ask :: rest))
    (sound : ∀ use ∈ before ++ ask :: rest, use.arrives = true) (asks : ask.records = false) :
    (((empty window true).after before).perform ask).1 = some true ↔
      Recent window ask.now (lastOpening? window ask.digest before) := by
  have arrives : ask.atBroker true = true := sound ask (by simp)
  have allSeen : before.filter (·.atBroker true) = before := by
    rw [List.filter_eq_self]
    intro use member
    exact sound use (List.mem_append_left _ member)
  rw [answer_iff window true order asks, if_pos arrives, allSeen]

/-- A ledger in memory goes by the last record, whatever the connection. -/
theorem answer_inMemory_iff (window : Int) (order : InOrder (before ++ ask :: rest))
    (asks : ask.records = false) :
    (((empty window false).after before).perform ask).1 = some true ↔
      Recent window ask.now (lastRecord? ask.digest before) := by
  have allSeen : before.filter (fun use => !use.atBroker false) = before := by
    rw [List.filter_eq_self]
    intro use member
    rfl
  rw [answer_iff window false order asks, if_neg (by simp [Use.atBroker]), allSeen]

/-- **Where a ledger kept by the broker agrees with one in memory.**  Over a connection that loses
nothing, the ledger in memory knows all that the one kept by the broker knows.  The two give the same
answers if and only if they are never asked for a digest that was last recorded less than a window
ago, while its last window was opened longer ago than that; and they do if no digest is recorded
while its window is open. -/
theorem answers_agree_iff (window : Int) (order : InOrder uses)
    (sound : ∀ use ∈ uses, use.arrives = true) :
    (∀ before ask rest, uses = before ++ ask :: rest →
      (((empty window true).after before).perform ask).1 = some true →
        (((empty window false).after before).perform ask).1 = some true) ∧
    ((empty window true).answers uses = (empty window false).answers uses ↔
      ∀ before ask rest, uses = before ++ ask :: rest → ask.records = false →
        Recent window ask.now (lastRecord? ask.digest before) →
          Recent window ask.now (lastOpening? window ask.digest before)) ∧
    ((∀ before record rest, uses = before ++ record :: rest → record.records = true →
        ¬ Recent window record.now (lastOpening? window record.digest before)) →
      (empty window true).answers uses = (empty window false).answers uses) := by
  have more : ∀ before ask rest, uses = before ++ ask :: rest →
      (((empty window true).after before).perform ask).1 = some true →
        (((empty window false).after before).perform ask).1 = some true := by
    rintro before ask rest rfl known
    cases asks : ask.records with
    | true =>
        rw [answer_of_records _ asks] at known
        cases known
    | false =>
        rw [answer_shared_iff window order sound asks] at known
        rw [answer_inMemory_iff window order asks]
        exact recent_lastRecord? order.of_append known
  have agree : (empty window true).answers uses = (empty window false).answers uses ↔
      ∀ before ask rest, uses = before ++ ask :: rest → ask.records = false →
        Recent window ask.now (lastRecord? ask.digest before) →
          Recent window ask.now (lastOpening? window ask.digest before) := by
    rw [answers_eq_iff]
    constructor
    · rintro each before ask rest rfl asks recent
      rw [← answer_inMemory_iff window order asks, ← each before ask rest rfl,
        answer_shared_iff window order sound asks] at recent
      exact recent
    · intro each before use rest split
      cases asks : use.records with
      | true => rw [answer_of_records _ asks, answer_of_records _ asks]
      | false =>
          have forth := more before use rest split
          have back : (((empty window false).after before).perform use).1 = some true →
              (((empty window true).after before).perform use).1 = some true := by
            subst split
            rw [answer_inMemory_iff window order asks, answer_shared_iff window order sound asks]
            exact each before use rest rfl asks
          obtain ⟨one, isOne⟩ := answer_of_asks ((empty window true).after before) asks
          obtain ⟨two, isTwo⟩ := answer_of_asks ((empty window false).after before) asks
          rw [isOne, isTwo] at forth back ⊢
          cases one <;> cases two <;> simp_all
  refine ⟨more, agree, ?_⟩
  intro unknown
  rw [agree]
  intro before ask rest split _ recent
  have same : lastOpening? window ask.digest before = lastRecord? ask.digest before := by
    refine lastOpening?_eq_lastRecord? (fun earlier record between split' => ?_) ask.digest
    refine unknown earlier record (between ++ ask :: rest) ?_
    rw [split, split']
    simp
  rw [same]
  exact recent

/-! ## Uses of one key -/

/-- A key is recorded at so many seconds. -/
def recordedAt (seconds : Int) (link : Link) : Use :=
  ⟨true, "key", ⟨seconds * Time.second⟩, link⟩

/-- The key is asked for at so many seconds. -/
def askedAt (seconds : Int) (link : Link) : Use :=
  ⟨false, "key", ⟨seconds * Time.second⟩, link⟩

/-- A connection that loses every command. -/
def broken : Link := .outage 0 none

/-- The key is recorded with the broker, and then in memory, for the connection has broken down. -/
def recordedTwice : List Use := [recordedAt 0 .sound, recordedAt 10 broken]

theorem delivered_of_recorded_alike_for_a_minute :
    (((empty 60 true).after recordedTwice).perform (askedAt 59 .sound)).1 = some true ∧
      (((empty 60 true).after recordedTwice).perform (askedAt 60 .sound)).1 ≠ some true ∧
      (((empty 60 true).after recordedTwice).perform (askedAt 69 broken)).1 = some true := by
  have own (seconds later : Int) (link : Link) :
      (recordedAt seconds link).recordsAs (askedAt later link).digest = true := by
    simp [Use.recordsAs, Use.digest, recordedAt, askedAt]
  refine ⟨?_, ?_, ?_⟩
  · exact (delivered_of_recorded_alike 60 (by decide) rfl).2 [] (recordedAt 0 .sound)
      [recordedAt 10 broken] rfl (own 0 59 .sound) rfl (by decide) fun _ => rfl
  · intro known
    obtain ⟨record, member, -, alike, within⟩ :=
      (delivered_of_recorded_alike 60 (by decide) rfl).1 known
    simp only [recordedTwice, List.mem_cons, List.not_mem_nil, or_false] at member
    rcases member with rfl | rfl
    · exact absurd within (by decide)
    · exact absurd alike (by decide)
  · exact (delivered_of_recorded_alike 60 (by decide) rfl).2 [recordedAt 0 .sound]
      (recordedAt 10 broken) [] rfl (own 10 69 broken) rfl (by decide) nofun

/-- **A delivery that is recorded can be forgotten while the connection is broken.** -/
theorem recorded_forgotten_while_broken :
    ¬ ∀ (window : Int) (before : List Use) (record ask : Use), InOrder (before ++ [ask]) →
      record ∈ before → record.recordsAs ask.digest = true → ask.records = false →
      Within window record.now ask.now →
        (((empty window true).after before).perform ask).1 = some true := by
  intro remembered
  have known := remembered 60 [recordedAt 0 .sound] (recordedAt 0 .sound) (askedAt 1 broken)
    (by decide) (by simp) (by simp [Use.recordsAs, Use.digest, recordedAt, askedAt]) rfl
    (by decide)
  cases known

theorem answers_agree_iff_of_one_record :
    (empty 60 true).answers [recordedAt 0 .sound, askedAt 59 .sound] =
      (empty 60 false).answers [recordedAt 0 .sound, askedAt 59 .sound] := by
  refine (answers_agree_iff 60 (by decide) (by decide)).2.2 ?_
  intro before record rest split records
  rcases before with _ | ⟨_, _ | ⟨_, before⟩⟩
  · exact not_recent_none
  · cases split
    cases records
  · simp at split

/-- **A ledger kept by the broker forgets a key earlier than one in memory** if it is recorded again
while it is remembered. -/
theorem answers_differ_of_second_record :
    ¬ ∀ (window : Int) (uses : List Use), 1 ≤ window → InOrder uses →
      (∀ use ∈ uses, use.arrives = true) →
        (empty window true).answers uses = (empty window false).answers uses := by
  intro agree
  have same := agree 60 [recordedAt 0 .sound, recordedAt 30 .sound, askedAt 70 .sound]
    (by decide) (by decide) (by decide)
  revert same
  decide +kernel

end LogAlert.Ledger
