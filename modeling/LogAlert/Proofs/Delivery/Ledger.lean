/-
# LogAlert.Proofs.Delivery.Ledger -- what a ledger remembers

A ledger is kept by the broker or in memory, and forgets in two ways: an entry of the broker expires
(`Ledger.Kept`), and memory is purged whenever it is asked (`Ledger.Recalled`).  `Ledger.Holds` is the
common view: a delivery under this digest is remembered at this instant.  Over a sound connection,
being asked does not change what is held from then on (`delivered_spec`), and recording a digest
that is not held adds it for the length of the window and changes nothing else (`record_spec`).

Memory counts in whole seconds and the broker does not, so that the two agree at instants at which a
second begins (`Instant.IsWhole`).

A connection that loses commands makes the ledger forget, but never makes it up: it has entries only
of digests that were recorded (`Ledger.Knows`, `delivered_knows`, `record_knows`).
-/
import LogAlert.Delivery.Ledger
import LogAlert.Proofs.Time.Order
import LogAlert.Proofs.Value.Entries

set_option autoImplicit false

namespace LogAlert

/-- A second begins. -/
def Time.Instant.IsWhole (now : Time.Instant) : Prop := Time.second ∣ now.micros

instance (now : Time.Instant) : Decidable now.IsWhole :=
  inferInstanceAs (Decidable (Time.second ∣ now.micros))

namespace Ledger

variable {ledger : Ledger} {now later : Time.Instant} {digest key : String}

theorem wholeSeconds_mono (passes : now ≤ later) : wholeSeconds now ≤ wholeSeconds later :=
  Int.tdiv_le_tdiv (by decide) passes

theorem wholeSeconds_mul (whole : now.IsWhole) : wholeSeconds now * Time.second = now.micros :=
  Int.tdiv_mul_cancel whole

/-- Fewer than so many seconds lie between two instants, counted either way. -/
theorem wholeSeconds_sub_lt_iff (whole : now.IsWhole) (whole' : later.IsWhole) (window : Int) :
    wholeSeconds later - wholeSeconds now < window ↔
      later.micros - now.micros < window * Time.second := by
  rw [← wholeSeconds_mul whole, ← wholeSeconds_mul whole', ← Int.sub_mul]
  exact (Int.mul_lt_mul_right (by decide)).symm

/-- Fewer than so many seconds lie between two instants. -/
def Within (window : Int) (since now : Time.Instant) : Prop :=
  now.micros - since.micros < window * Time.second

instance (window : Int) (since now : Time.Instant) : Decidable (Within window since now) :=
  inferInstanceAs (Decidable (_ < _))

/-- The broker keeps an entry of the digest. -/
def Kept (ledger : Ledger) (now : Time.Instant) (digest : String) : Prop :=
  ∃ entry ∈ ledger.entries, entry.digest = digest ∧ now < entry.expiry

/-- Memory has an entry of the digest that is not too old. -/
def Recalled (ledger : Ledger) (now : Time.Instant) (digest : String) : Prop :=
  ∃ entry ∈ ledger.memory, entry.1 = digest ∧ wholeSeconds now - entry.2 < ledger.window

/-- The ledger remembers a delivery under this digest. -/
def Holds (ledger : Ledger) (now : Time.Instant) (digest : String) : Prop :=
  if ledger.isShared then ∃ entry ∈ ledger.entries, entry.digest = digest ∧ now < entry.expiry
  else ∃ entry ∈ ledger.memory, entry.1 = digest ∧ wholeSeconds now - entry.2 < ledger.window

theorem holds_shared (shared : ledger.isShared = true) :
    ledger.Holds now digest ↔ ledger.Kept now digest := by
  rw [Holds, if_pos shared, Kept]

theorem holds_inMemory (inMemory : ¬ ledger.isShared = true) :
    ledger.Holds now digest ↔ ledger.Recalled now digest := by
  rw [Holds, if_neg inMemory, Recalled]

theorem not_holds_empty (window : Int) (isShared : Bool) (now : Time.Instant) (digest : String) :
    ¬ (empty window isShared).Holds now digest := by
  unfold Holds empty
  split <;> rintro ⟨entry, member, -⟩ <;> cases member

theorem Kept.earlier (kept : ledger.Kept later digest) (passes : now ≤ later) :
    ledger.Kept now digest := by
  obtain ⟨entry, member, own, alive⟩ := kept
  exact ⟨entry, member, own, lt_of_le_of_lt passes alive⟩

theorem Recalled.earlier (recalled : ledger.Recalled later digest) (passes : now ≤ later) :
    ledger.Recalled now digest := by
  obtain ⟨entry, member, own, young⟩ := recalled
  have seconds := wholeSeconds_mono passes
  exact ⟨entry, member, own, by omega⟩

/-- What is held later is held now. -/
theorem Holds.earlier (holds : ledger.Holds later digest) (passes : now ≤ later) :
    ledger.Holds now digest := by
  by_cases shared : ledger.isShared = true
  · rw [holds_shared shared] at holds ⊢
    exact holds.earlier passes
  · rw [holds_inMemory shared] at holds ⊢
    exact holds.earlier passes

theorem isKept_iff : ledger.isKept now digest = true ↔ ledger.Kept now digest := by
  simp only [isKept, isAlive, Kept, List.any_eq_true, Bool.and_eq_true, decide_eq_true_eq]

/-! ## Asking -/

theorem mem_forget {entry : String × Int} {seconds : Int} :
    entry ∈ (ledger.forget seconds).memory ↔
      entry ∈ ledger.memory ∧ seconds - entry.2 < ledger.window := by
  simp only [forget, List.mem_filter, decide_eq_true_eq]

theorem isRemembered_iff :
    (ledger.isRemembered now digest).1 = true ↔ ledger.Recalled now digest := by
  simp only [isRemembered, Recalled, Option.any_eq_true, decide_eq_true_eq]
  constructor
  · rintro ⟨stamp, found, young⟩
    exact ⟨(digest, stamp), (mem_forget.1 (mem_of_lookup found)).1, rfl, young⟩
  · rintro ⟨entry, member, rfl, young⟩
    -- memory may have an older entry of the digest first; it is forgotten before the lookup
    have kept : entry ∈ (ledger.forget (wholeSeconds now)).memory := mem_forget.2 ⟨member, young⟩
    cases found : (ledger.forget (wholeSeconds now)).memory.lookup entry.1 with
    | none =>
        have other := List.lookup_eq_none_iff.1 found entry kept
        simp at other
    | some stamp =>
        exact ⟨stamp, rfl, (mem_forget.1 (mem_of_lookup found)).2⟩

theorem recalled_forget (passes : now ≤ later) :
    (ledger.forget (wholeSeconds now)).Recalled later digest ↔ ledger.Recalled later digest := by
  have seconds := wholeSeconds_mono passes
  constructor
  · rintro ⟨entry, member, own, young⟩
    exact ⟨entry, (mem_forget.1 member).1, own, young⟩
  · rintro ⟨entry, member, own, young⟩
    exact ⟨entry, mem_forget.2 ⟨member, by omega⟩, own, young⟩

/-- **Asking a ledger.** -/
theorem delivered_spec (ledger : Ledger) (now : Time.Instant) (key : String) :
    ((ledger.delivered .sound now key).1 = true ↔ ledger.Holds now (Digest.ofKey key)) ∧
      (ledger.delivered .sound now key).2.2 = .sound ∧
      (ledger.delivered .sound now key).2.1.window = ledger.window ∧
      ∀ later, now ≤ later → ∀ digest,
        ((ledger.delivered .sound now key).2.1.Holds later digest ↔ ledger.Holds later digest) := by
  unfold delivered
  split
  · rename_i shared
    exact ⟨isKept_iff.trans (holds_shared shared).symm, rfl, rfl, fun _ _ _ => Iff.rfl⟩
  · rename_i inMemory
    refine ⟨isRemembered_iff.trans (holds_inMemory inMemory).symm, rfl, rfl, ?_⟩
    intro later passes digest
    have inMemory' : ¬ (ledger.forget (wholeSeconds now)).isShared = true := inMemory
    exact (holds_inMemory inMemory').trans
      ((recalled_forget passes).trans (holds_inMemory inMemory).symm)

/-! ## Recording -/

theorem mem_memorize {entry : String × Int} {seconds : Int} :
    entry ∈ (ledger.memorize digest seconds).memory ↔
      entry = (digest, seconds) ∨ entry ∈ ledger.memory ∧ entry.1 ≠ digest := by
  unfold memorize
  split
  · rename_i present
    obtain ⟨old, member, own⟩ := List.any_eq_true.1 present
    have own : old.1 = digest := of_decide_eq_true own
    simp only [List.mem_map, Prod.exists]
    constructor
    · rintro ⟨d, stamp, inMemory, rfl⟩
      by_cases same : d = digest
      · exact .inl (by rw [if_pos same, same])
      · rw [if_neg same]
        exact .inr ⟨inMemory, same⟩
    · rintro (rfl | ⟨inMemory, other⟩)
      · exact ⟨old.1, old.2, member, by rw [if_pos own, own]⟩
      · exact ⟨entry.1, entry.2, inMemory, if_neg other⟩
  · rename_i absent
    have other (old : String × Int) (member : old ∈ ledger.memory) : old.1 ≠ digest :=
      fun own => absent (List.any_eq_true.2 ⟨old, member, decide_eq_true own⟩)
    rw [List.mem_append, List.mem_singleton]
    constructor
    · rintro (inMemory | rfl)
      · exact .inr ⟨inMemory, other entry inMemory⟩
      · exact .inl rfl
    · rintro (rfl | ⟨inMemory, -⟩)
      · exact .inr rfl
      · exact .inl inMemory

theorem mem_keep (unknown : ledger.isKept now digest = false) {entry : SharedEntry} :
    entry ∈ (ledger.keep now digest).entries ↔ entry ∈ ledger.entries ∧ now < entry.expiry ∨
      entry = ⟨digest, wholeSeconds now, ⟨now.micros + ledger.window * Time.second⟩⟩ := by
  simp only [keep, unknown, isAlive, Bool.false_eq_true, if_false, List.mem_append,
    List.mem_filter, decide_eq_true_eq, List.mem_singleton]

theorem keep_same (ledger : Ledger) (now : Time.Instant) (digest : String) :
    (ledger.keep now digest).isShared = ledger.isShared ∧
      (ledger.keep now digest).window = ledger.window := by
  unfold keep
  split <;> exact ⟨rfl, rfl⟩

theorem memorize_same (ledger : Ledger) (digest : String) (seconds : Int) :
    (ledger.memorize digest seconds).isShared = ledger.isShared ∧
      (ledger.memorize digest seconds).window = ledger.window := by
  unfold memorize
  split <;> exact ⟨rfl, rfl⟩

/-- The broker keeps what it has, and an entry that is new to it. -/
theorem kept_keep {other : String} (passes : now ≤ later) :
    (ledger.keep now digest).Kept later other ↔ ledger.Kept later other ∨
      other = digest ∧ ¬ ledger.Kept now digest ∧ Within ledger.window now later := by
  by_cases held : ledger.isKept now digest = true
  · have same : ledger.keep now digest = ledger := if_pos held
    have kept : ledger.Kept now digest := isKept_iff.1 held
    rw [same]
    simp [kept]
  · have unknown : ¬ ledger.Kept now digest := fun kept => held (isKept_iff.2 kept)
    have notKept : ledger.isKept now digest = false := Bool.eq_false_iff.2 held
    constructor
    · rintro ⟨entry, member, own, alive⟩
      rcases (mem_keep notKept).1 member with ⟨old, -⟩ | rfl
      · exact .inl ⟨entry, old, own, alive⟩
      · exact .inr ⟨own.symm, unknown, Int.sub_left_lt_of_lt_add alive⟩
    · rintro (⟨entry, old, own, alive⟩ | ⟨rfl, -, inWindow⟩)
      · exact ⟨entry, (mem_keep notKept).2 (.inl ⟨old, lt_of_le_of_lt passes alive⟩), own, alive⟩
      · exact ⟨_, (mem_keep notKept).2 (.inr rfl), rfl, Int.lt_add_of_sub_left_lt inWindow⟩

/-- Memory recalls what it did, but of the digest itself only the new entry. -/
theorem recalled_memorize {other : String} (whole : now.IsWhole) (whole' : later.IsWhole) :
    (ledger.memorize digest (wholeSeconds now)).Recalled later other ↔
      if other = digest then Within ledger.window now later else ledger.Recalled later other := by
  rw [Within, ← wholeSeconds_sub_lt_iff whole whole', Recalled,
    (memorize_same ledger digest _).2]
  by_cases own : other = digest
  · subst own
    rw [if_pos rfl]
    constructor
    · rintro ⟨entry, member, own, young⟩
      rcases mem_memorize.1 member with rfl | ⟨-, different⟩
      · exact young
      · exact absurd own different
    · intro young
      exact ⟨_, mem_memorize.2 (.inl rfl), rfl, young⟩
  · rw [if_neg own]
    constructor
    · rintro ⟨entry, member, rfl, young⟩
      rcases mem_memorize.1 member with rfl | ⟨old, -⟩
      · exact absurd rfl own
      · exact ⟨entry, old, rfl, young⟩
    · rintro ⟨entry, old, rfl, young⟩
      exact ⟨entry, mem_memorize.2 (.inr ⟨old, own⟩), rfl, young⟩

theorem keep_holds {other : String} (shared : ledger.isShared = true) (passes : now ≤ later)
    (unknown : ¬ ledger.Holds now digest) :
    (ledger.keep now digest).Holds later other ↔ ledger.Holds later other ∨
      other = digest ∧ later.micros - now.micros < ledger.window * Time.second := by
  have shared' := (keep_same ledger now digest).1.trans shared
  have notKept : ¬ ledger.Kept now digest := fun kept => unknown ((holds_shared shared).2 kept)
  rw [holds_shared shared', holds_shared shared, kept_keep passes, and_iff_right notKept, Within]

theorem memorize_holds {other : String} (inMemory : ¬ ledger.isShared = true)
    (whole : now.IsWhole) (whole' : later.IsWhole) (passes : now ≤ later)
    (unknown : ¬ ledger.Holds now digest) :
    (ledger.memorize digest (wholeSeconds now)).Holds later other ↔ ledger.Holds later other ∨
      other = digest ∧ later.micros - now.micros < ledger.window * Time.second := by
  have inMemory' : ¬ (ledger.memorize digest (wholeSeconds now)).isShared = true := by
    rwa [(memorize_same ledger digest _).1]
  rw [holds_inMemory inMemory', holds_inMemory inMemory, recalled_memorize whole whole', Within]
  by_cases own : other = digest
  · subst own
    have forgotten : ¬ ledger.Recalled later other := fun recalled =>
      unknown ((holds_inMemory inMemory).2 (recalled.earlier passes))
    simp [forgotten]
  · simp [own]

theorem record_link (ledger : Ledger) (now : Time.Instant) (key : String) :
    (ledger.record .sound now key).2 = .sound := by
  unfold record
  split <;> rfl

/-- **Recording a delivery that the ledger does not remember.** -/
theorem record_spec (whole : now.IsWhole) (unknown : ¬ ledger.Holds now (Digest.ofKey key)) :
    (ledger.record .sound now key).1.window = ledger.window ∧
      ∀ later, later.IsWhole → now ≤ later → ∀ digest,
        ((ledger.record .sound now key).1.Holds later digest ↔ ledger.Holds later digest ∨
          digest = Digest.ofKey key ∧
            later.micros - now.micros < ledger.window * Time.second) := by
  unfold record
  split
  · rename_i shared
    exact ⟨(keep_same ledger now _).2,
      fun later _ passes digest => keep_holds shared passes unknown⟩
  · rename_i inMemory
    exact ⟨(memorize_same ledger _ _).2,
      fun later whole' passes digest => memorize_holds inMemory whole whole' passes unknown⟩

/-! ## Over any connection -/

/-- The ledger has an entry of this digest, in memory or with the broker, be it old or not. -/
def Knows (ledger : Ledger) (digest : String) : Prop :=
  (∃ entry ∈ ledger.memory, entry.1 = digest) ∨ ∃ entry ∈ ledger.entries, entry.digest = digest

theorem not_knows_empty (window : Int) (isShared : Bool) (digest : String) :
    ¬ (empty window isShared).Knows digest := by
  rintro (⟨entry, member, -⟩ | ⟨entry, member, -⟩) <;> cases member

/-- What is remembered is known, and being asked adds nothing. -/
theorem isRemembered_knows (ledger : Ledger) (now : Time.Instant) (digest : String) :
    ((ledger.isRemembered now digest).1 = true → ledger.Knows digest) ∧
      ∀ other, (ledger.isRemembered now digest).2.Knows other → ledger.Knows other := by
  constructor
  · intro remembered
    obtain ⟨entry, member, own, -⟩ := isRemembered_iff.1 remembered
    exact .inl ⟨entry, member, own⟩
  · rintro other (⟨entry, member, own⟩ | kept)
    · exact .inl ⟨entry, (mem_forget.1 member).1, own⟩
    · exact .inr kept

/-- Only what is known is taken for delivered, whether the broker answers or not. -/
theorem delivered_knows (ledger : Ledger) (link : Link) (now : Time.Instant) (key : String) :
    ((ledger.delivered link now key).1 = true → ledger.Knows (Digest.ofKey key)) ∧
      ∀ digest, (ledger.delivered link now key).2.1.Knows digest → ledger.Knows digest := by
  have inMemory := ledger.isRemembered_knows now (Digest.ofKey key)
  unfold delivered
  split
  · rcases link.send with ⟨_ | _, later⟩
    · exact inMemory
    · refine ⟨fun kept => ?_, fun digest knows => knows⟩
      obtain ⟨entry, member, own, -⟩ := isKept_iff.1 kept
      exact .inr ⟨entry, member, own⟩
  · exact inMemory

theorem memorize_knows {seconds : Int} {other : String}
    (knows : (ledger.memorize digest seconds).Knows other) :
    ledger.Knows other ∨ other = digest := by
  rcases knows with ⟨entry, member, rfl⟩ | ⟨entry, member, own⟩
  · rcases mem_memorize.1 member with rfl | ⟨old, -⟩
    · exact .inr rfl
    · exact .inl (.inl ⟨entry, old, rfl⟩)
  · have same : (ledger.memorize digest seconds).entries = ledger.entries := by
      unfold memorize
      split <;> rfl
    exact .inl (.inr ⟨entry, same ▸ member, own⟩)

theorem keep_knows {other : String} (knows : (ledger.keep now digest).Knows other) :
    ledger.Knows other ∨ other = digest := by
  cases kept : ledger.isKept now digest with
  | true =>
      have same : ledger.keep now digest = ledger := if_pos kept
      exact .inl (same ▸ knows)
  | false =>
      have same : (ledger.keep now digest).memory = ledger.memory := by
        rw [keep, kept]
        rfl
      rcases knows with ⟨entry, member, own⟩ | ⟨entry, member, rfl⟩
      · exact .inl (.inl ⟨entry, same ▸ member, own⟩)
      · rcases (mem_keep kept).1 member with ⟨old, -⟩ | rfl
        · exact .inl (.inr ⟨entry, old, rfl⟩)
        · exact .inr rfl

/-- Recording a delivery adds no digest but its own, whether the broker answers or not. -/
theorem record_knows {link : Link} (knows : (ledger.record link now key).1.Knows digest) :
    ledger.Knows digest ∨ digest = Digest.ofKey key := by
  unfold record at knows
  split at knows
  · rcases sent : link.send with ⟨_ | _, later⟩
    · simp only [sent] at knows
      exact memorize_knows knows
    · simp only [sent] at knows
      exact keep_knows knows
  · exact memorize_knows knows

end Ledger

end LogAlert
