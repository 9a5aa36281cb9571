/-
# LogAlert.Proofs.Delivery.Targets -- whom the matches of a batch are told to

A notification of matches is made in two steps.  The engine says which rules matched; then the store
is asked, by the identifier of each such rule, for the row whose people are to be told.  The lemmas
here join the two: a queued notification is for the row that the store finds under the identifier of
a rule that it offered to the scope and that holds of a log of the batch (`process_spec`).

They do not say that the two rows are one.  `Store.findRule?` asks for the organization only and
takes its first row with the identifier, while the rules that are evaluated are those that are
active for the project.
-/
import LogAlert.Delivery.Detected
import LogAlert.Proofs.Engine.Matches

set_option autoImplicit false

namespace LogAlert

/-- The notification names the row, and goes to the people of the row. -/
structure Notification.IsFor (n : Notification) (row : DetectionRow) : Prop where
  ruleId : n.ruleId = row.id
  recipients : n.recipients = row.recipients.map .text
  webhook : n.webhook = .ofText? row.webhook

theorem Engine.Batch.organization_of_scope {batch : Engine.Batch} {scope : Scope}
    (named : batch.scope = .ok scope) : scope.organization = batch.organization := by
  unfold Engine.Batch.scope at named
  split at named
  · cases named
    rfl
  · cases named
    rfl
  · split at named
    · cases named
    · obtain ⟨project, -, named⟩ := bind_eq_ok.1 named
      cases named
      rfl

theorem Store.findRule?_mem {store : Store} {organization id : String} {row : DetectionRow}
    (found : store.findRule? organization id = some row) : row ∈ store.detectionRules :=
  List.mem_of_find?_eq_some found

namespace Delivery

/-! ## Grouping -/

theorem mem_tally {groups : List RuleMatches} {rule : Sigma.Rule} {group : RuleMatches}
    (member : group ∈ tally groups rule) :
    group.rule = rule ∨ ∃ earlier ∈ groups, group.rule = earlier.rule := by
  induction groups with
  | nil =>
      rw [List.mem_singleton.1 member]
      exact .inl rfl
  | cons first rest ih =>
      unfold tally at member
      split at member
      · rcases List.mem_cons.1 member with rfl | behind
        · exact .inr ⟨first, List.mem_cons_self, rfl⟩
        · exact .inr ⟨group, List.mem_cons_of_mem _ behind, rfl⟩
      · rcases List.mem_cons.1 member with rfl | behind
        · exact .inr ⟨group, List.mem_cons_self, rfl⟩
        · rcases ih behind with new | ⟨earlier, inRest, same⟩
          · exact .inl new
          · exact .inr ⟨earlier, List.mem_cons_of_mem _ inRest, same⟩

/-- Groups come from the groups before and from the matches that are counted. -/
theorem mem_foldl_tally {found : List Engine.Match} {groups : List RuleMatches}
    {group : RuleMatches}
    (member : group ∈ found.foldl (fun groups found => tally groups found.rule.rule) groups) :
    (∃ one ∈ found, one.rule.rule = group.rule) ∨ ∃ earlier ∈ groups, group.rule = earlier.rule := by
  induction found generalizing groups with
  | nil => exact .inr ⟨group, member, rfl⟩
  | cons first rest ih =>
      rcases ih member with ⟨other, inRest, same⟩ | ⟨earlier, tallied, same⟩
      · exact .inl ⟨other, List.mem_cons_of_mem _ inRest, same⟩
      · rcases mem_tally tallied with new | ⟨old, before, same'⟩
        · exact .inl ⟨first, List.mem_cons_self, (same.trans new).symm⟩
        · exact .inr ⟨old, before, same.trans same'⟩

/-- The rule of each group was matched. -/
theorem mem_grouped {results : List (List Engine.Match)} {group : RuleMatches}
    (member : group ∈ grouped results) : ∃ found ∈ results.flatten, found.rule.rule = group.rule := by
  rcases mem_foldl_tally member with matched | ⟨earlier, impossible, -⟩
  · exact matched
  · cases impossible

/-! ## Queueing -/

variable {store : Store} {batch : Engine.Batch} {source : String}

/-- The notification is one that the matches of the group give rise to. -/
def Announces (store : Store) (batch : Engine.Batch) (group : RuleMatches) (n : Notification) :
    Prop :=
  ∃ row id, store.findRule? batch.organization group.rule.id = some row ∧
    n = ofMatches id batch group row

theorem Announces.isFor {group : RuleMatches} {n : Notification}
    (announces : Announces store batch group n) :
    ∃ row, store.findRule? batch.organization group.rule.id = some row ∧ n.IsFor row := by
  obtain ⟨row, id, found, rfl⟩ := announces
  exact ⟨row, found, rfl, rfl, rfl⟩

theorem Notifying.find_spec (state : Notifying) (store : Store) (organization id : String) :
    (state.find store organization id).2.ids = state.ids ∧
      ∀ row, (state.find store organization id).1 = some row →
        store.findRule? organization id = some row := by
  unfold find
  split
  · exact ⟨rfl, fun row found => found⟩
  · exact ⟨rfl, fun row found => found⟩
  · exact ⟨rfl, fun row found => nomatch found⟩
  · exact ⟨rfl, fun row found => nomatch found⟩

theorem notificationId_advances (ids : Ids) (source row : String) :
    ids.Advances (notificationId ids source row).2 := by
  unfold notificationId
  split
  · exact .fresh ids
  · exact .refl ids

theorem notify_spec (store : Store) (batch : Engine.Batch) (source : String)
    (group : RuleMatches) (link : Link) (state : Notifying) :
    state.ids.Advances (notify store batch source group link state).2.2.ids ∧
      ∀ n, (notify store batch source group link state).1 = some n →
        Announces store batch group n := by
  obtain ⟨sameIds, finds⟩ := state.find_spec store batch.organization group.rule.id
  unfold notify
  split
  · rename_i later result
    rw [result] at sameIds
    exact ⟨sameIds ▸ .refl later.ids, fun n queued => nomatch queued⟩
  · rename_i row later result
    rw [result] at sameIds finds
    replace sameIds : later.ids = state.ids := sameIds
    split
    · exact ⟨sameIds ▸ .refl later.ids, fun n queued => nomatch queued⟩
    · refine ⟨sameIds ▸ notificationId_advances later.ids source row.id, ?_⟩
      intro n queued
      dsimp only at queued
      split at queued
      · cases queued
        exact ⟨row, _, finds row rfl, rfl⟩
      · cases queued

theorem notifyAll_spec (store : Store) (batch : Engine.Batch) (source : String)
    (groups : List RuleMatches) (link : Link) (state : Notifying) :
    state.ids.Advances (notifyAll store batch source groups link state).2.2.ids ∧
      ∀ n ∈ (notifyAll store batch source groups link state).1,
        ∃ group ∈ groups, Announces store batch group n := by
  induction groups generalizing link state with
  | nil => exact ⟨.refl _, fun n queued => nomatch queued⟩
  | cons group rest ih =>
      obtain ⟨advances, ofFirst⟩ := notify_spec store batch source group link state
      obtain ⟨advances', ofRest⟩ := ih (notify store batch source group link state).2.1
        (notify store batch source group link state).2.2
      refine ⟨advances.trans advances', ?_⟩
      intro n queued
      rcases List.mem_append.1 queued with first | behind
      · exact ⟨group, List.mem_cons_self, ofFirst n (Option.mem_toList.1 first)⟩
      · obtain ⟨other, inRest, announces⟩ := ofRest n behind
        exact ⟨other, List.mem_cons_of_mem _ inRest, announces⟩

/-! ## Processing -/

/-- What processing needs and preserves: the engine keeps rules of the store only, and no name that
was handed out comes again. -/
structure Processing.Sound (state : Processing) (store : Store) (ids : Ids) : Prop where
  coherent : state.engine.Coherent store
  advances : ids.Advances state.notifying.ids

variable {state : Processing} {ids : Ids} {P : Engine.Remembered → Prop}

/-- Processing a batch makes the engine keep nothing but what loading rules does, and hands out no
name a second time. -/
theorem process_keeps (keeps : state.engine.Keeps P) (advances : ids.Advances state.notifying.ids)
    {now : Time.Instant}
    (new : ∀ scope rules, (store.activeRules scope >>= Engine.compileAll) = .ok rules →
      P ⟨scope, now, rules⟩) (batch : Engine.Batch) (source : String) (link : Link) :
    (process store now batch source link state).2.2.engine.Keeps P ∧
      ids.Advances (process store now batch source link state).2.2.notifying.ids := by
  unfold process
  split
  · exact ⟨keeps, advances⟩
  · rename_i scope named
    have evaluated := keeps.evaluateBatch (new scope) batch.logs
    split
    · rename_i result
      rw [result] at evaluated
      exact ⟨evaluated, advances⟩
    · rename_i results engine result
      rw [result] at evaluated
      exact ⟨evaluated, advances.trans (notifyAll_spec store batch source _ link _).1⟩

/-- So does handling a job. -/
theorem handle_keeps (keeps : state.engine.Keeps P) (advances : ids.Advances state.notifying.ids)
    {now : Time.Instant}
    (new : ∀ scope rules, (store.activeRules scope >>= Engine.compileAll) = .ok rules →
      P ⟨scope, now, rules⟩) (job : Broker.Job) (link : Link) :
    (handle store now job link state).2.2.engine.Keeps P ∧
      ids.Advances (handle store now job link state).2.2.notifying.ids := by
  unfold handle
  split
  · exact ⟨keeps, advances⟩
  · exact process_keeps keeps advances new _ _ link

/-- **What processing a batch preserves, and whom it notifies.** -/
theorem process_spec (sound : state.Sound store ids) (now : Time.Instant) (batch : Engine.Batch)
    (source : String) (link : Link) :
    (process store now batch source link state).2.2.Sound store ids ∧
      ∀ queued, (process store now batch source link state).1 = .ok queued → ∀ n ∈ queued,
        ∃ scope compiled, batch.scope = .ok scope ∧ store.Offers scope compiled ∧
          compiled.Matches state.engine.caseSensitive now batch.logs ∧
          ∃ row, store.findRule? batch.organization compiled.rule.id = some row ∧ n.IsFor row := by
  obtain ⟨coherent, advances⟩ := process_keeps sound.coherent sound.advances
    (fun _ _ listed _ => Engine.offers_of_compileAll listed) batch source link
  refine ⟨⟨coherent, advances⟩, ?_⟩
  unfold process
  split
  · exact fun queued ended => nomatch ended
  · rename_i scope named
    obtain ⟨-, -, finds⟩ := Engine.evaluateBatch_spec sound.coherent now scope batch.logs
    split
    · exact fun queued ended => nomatch ended
    · rename_i results engine result
      rw [result] at finds
      rintro _ ⟨⟩ n queued
      obtain ⟨group, ofGroups, announces⟩ :=
        (notifyAll_spec store batch source (grouped results) link state.notifying).2 n queued
      obtain ⟨found, matched, same⟩ := mem_grouped ofGroups
      obtain ⟨offers, matches'⟩ := finds results rfl found matched
      exact ⟨scope, found.rule, named, offers, matches', same ▸ announces.isFor⟩

theorem handle_sound (sound : state.Sound store ids) (now : Time.Instant) (job : Broker.Job)
    (link : Link) : (handle store now job link state).2.2.Sound store ids :=
  have kept := handle_keeps sound.coherent sound.advances
    (fun _ _ listed _ => Engine.offers_of_compileAll listed) job link
  ⟨kept.1, kept.2⟩

end Delivery

end LogAlert
