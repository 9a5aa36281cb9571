/-
# LogAlert.Proofs.Sigma.ListCondition -- a condition that is a list

The members of a condition list are put in parentheses and joined by `or`, as texts.  So they are the
alternatives of one condition, if each of them is a condition by itself and closes the groups that it
opens.  The parser closes groups that are open at the end, and so a member may leave some open; in
the joined text these are open for the members behind it.

Main statement: `list_condition_disjunction`.  It says exactly when the joined text is a condition,
for members that are conditions and for any others, and what it means then.
-/
import LogAlert.Proofs.Condition.Alternatives
import LogAlert.Proofs.Condition.Meaning
import LogAlert.Sigma.Normalization

set_option autoImplicit false

namespace LogAlert.Sigma

open Condition

variable {members : List String}

/-- The text that the members of a condition list are joined to. -/
def joinedMembers (members : List String) : String :=
  Value.joined " or " (members.map fun text => "(" ++ Text.trim text ++ ")")

/-- Two members or more that are not blank are all joined. -/
theorem conditionOf_texts (several : 2 ≤ members.length)
    (filled : ∀ text ∈ members, isFilled text = true) :
    conditionOf (.list (members.map .text)) = .ok (joinedMembers members) := by
  have texts : (members.map Value.text).filterMap Value.text? = members := by
    rw [List.filterMap_map]
    exact List.filterMap_some
  rw [conditionOf, texts, List.filter_eq_self.2 filled, joinedMembers]
  match members, several with
  | first :: second :: others, _ => simp only [List.map_cons, List.map_map, Function.comp_def]

/-- The words of the joined text are those of the members. -/
theorem wordsFrom_joinedMembers {all : List Token} :
    wordsFrom [] (joinedMembers members).toList = some all ↔
      ∃ words, List.Forall₂ (fun text words => wordsFrom [] text.toList = some words)
        members words ∧ all = alternatives words := by
  have chars : (joinedMembers members).toList = [' ', 'o', 'r', ' '].intercalate
      ((members.map fun text => Text.trimChars text.toList).map bracketed) := by
    rw [joinedMembers, Value.joined, String.toList_intercalate, List.map_map, List.map_map]
    refine congrArg (List.intercalate _) (List.map_congr_left fun text _ => ?_)
    simp [Text.trim, bracketed]
  rw [chars, wordsFrom_alternatives]
  simp only [List.forall₂_map_left_iff, wordsFrom_trimChars]

theorem exists_words {trees : List Tree}
    (each : List.Forall₂ (fun text tree => parse text = .ok tree) members trees) :
    ∃ words, List.Forall₂ (fun text words => wordsFrom [] text.toList = some words) members words ∧
      List.Forall₂ (fun words tree => Progress.start.readFrom words = some tree) words trees := by
  induction each with
  | nil => exact ⟨[], .nil, .nil⟩
  | cons one each ih =>
      obtain ⟨words, split, read⟩ := parse_eq_ok.1 one
      obtain ⟨others, splits, reads⟩ := ih
      exact ⟨words :: others, .cons split splits, .cons read reads⟩

/-- Whether groups are left open can be seen on the texts. -/
theorem mostlyClosed_words {words : List (List Token)}
    (splits : List.Forall₂ (fun text words => wordsFrom [] text.toList = some words) members words)
    (closed : ∀ text ∈ members.dropLast, ∀ level ∈ openGroups text, level ≤ 1) :
    MostlyClosed words := by
  have butLast : List.Forall₂ (fun text words => wordsFrom [] text.toList = some words)
      members.dropLast words.dropLast := by
    rw [List.dropLast_eq_take, List.dropLast_eq_take, ← splits.length_eq]
    exact List.forall₂_take _ splits
  intro inner member
  obtain ⟨text, inList, split⟩ := exists_of_forall₂ butLast member
  rw [openGroups_of_words split]
  exact closed text inList

/-- If the joined text is a condition and no member closes a group that it has not opened, then the
members are conditions. -/
theorem parse_members {tree : Tree} (read : parse (joinedMembers members) = .ok tree)
    (own : ∀ text ∈ members, (openGroups text).isSome) :
    ∀ text ∈ members, ∃ tree, parse text = .ok tree := by
  obtain ⟨_, split, read⟩ := parse_eq_ok.1 read
  obtain ⟨words, splits, rfl⟩ := wordsFrom_joinedMembers.1 split
  have ownWords : ∀ inner ∈ words, (groupsAfter Token.side 0 inner).isSome := by
    intro inner member
    obtain ⟨text, inList, split⟩ := exists_of_forall₂ splits member
    rw [openGroups_of_words split]
    exact own text inList
  intro text member
  obtain ⟨inner, inWords, split⟩ := exists_of_forall₂ splits.flip member
  obtain ⟨tree, alone⟩ := forall_read_of_alternatives ownWords read inner inWords
  exact ⟨tree, parse_eq_ok.2 ⟨inner, split, alone⟩⟩

/-- If the members are conditions, then the joined text is one. -/
theorem parse_joinedMembers (nonempty : members ≠ []) {trees : List Tree}
    (each : List.Forall₂ (fun text tree => parse text = .ok tree) members trees) :
    ∃ tree, parse (joinedMembers members) = .ok tree ∧ ∀ names answer,
      (tree.value names answer = true → trees.any (·.value names answer) = true) ∧
      ((∀ text ∈ members.dropLast, ∀ level ∈ openGroups text, level ≤ 1) →
        tree.value names answer = trees.any (·.value names answer)) := by
  obtain ⟨words, splits, reads⟩ := exists_words each
  have some : words ≠ [] := by
    rintro rfl
    exact nonempty (List.forall₂_nil_right_iff.1 splits)
  obtain ⟨tree, read, meaning⟩ := exists_readFrom_alternatives some reads
  refine ⟨tree, parse_eq_ok.2 ⟨_, wordsFrom_joinedMembers.2 ⟨words, splits, rfl⟩, read⟩, ?_⟩
  intro names answer
  simp only [Tree.value_eq_meaning]
  obtain ⟨only, whenClosed⟩ := meaning names answer
  exact ⟨only, fun closed => whenClosed (mostlyClosed_words splits closed)⟩

/-- **A condition list is the disjunction of its members, up to groups.**  Its members, two or more
that are not blank, are joined to one text.  They are conditions if and only if this text is one and
none of them closes a group that it has not opened.  Then, whatever the answers for the selections
are, the joined condition holds only if a member does; and it holds exactly if a member does,
provided that no member but the last leaves more than one group open. -/
theorem list_condition_disjunction (members : List String) (several : 2 ≤ members.length)
    (filled : ∀ text ∈ members, isFilled text = true) :
    ∃ joined, conditionOf (.list (members.map .text)) = .ok joined ∧
      ((∀ text ∈ members, ∃ tree, parse text = .ok tree) ↔
        (∃ tree, parse joined = .ok tree) ∧ ∀ text ∈ members, (openGroups text).isSome) ∧
      ∀ trees, List.Forall₂ (fun text tree => parse text = .ok tree) members trees →
        ∃ tree, parse joined = .ok tree ∧ ∀ names answer,
          (tree.value names answer = true → trees.any (·.value names answer) = true) ∧
          ((∀ text ∈ members.dropLast, ∀ level ∈ openGroups text, level ≤ 1) →
            tree.value names answer = trees.any (·.value names answer)) := by
  have nonempty : members ≠ [] := List.ne_nil_of_length_pos (by omega)
  refine ⟨joinedMembers members, conditionOf_texts several filled, ⟨fun all => ⟨?_, ?_⟩, ?_⟩, ?_⟩
  · obtain ⟨trees, mapped⟩ := mapM_total all
    obtain ⟨tree, read, -⟩ := parse_joinedMembers nonempty (mapM_eq_ok.1 mapped)
    exact ⟨tree, read⟩
  · intro text member
    obtain ⟨tree, read⟩ := all text member
    exact isSome_openGroups read
  · rintro ⟨⟨tree, read⟩, own⟩
    exact parse_members read own
  · intro trees each
    exact parse_joinedMembers nonempty each

/-- The first member leaves a group open, which is closed by the parenthesis behind it. -/
theorem list_condition_disjunction_of_open_group :
    2 ≤ ["a and (b or c", "d"].length ∧ (∀ text ∈ ["a and (b or c", "d"], isFilled text = true) ∧
      ∃ joined, conditionOf (.list (["a and (b or c", "d"].map .text)) = .ok joined ∧
        ((∀ text ∈ ["a and (b or c", "d"], ∃ tree, parse text = .ok tree) ↔
          (∃ tree, parse joined = .ok tree) ∧
            ∀ text ∈ ["a and (b or c", "d"], (openGroups text).isSome) ∧
        ∀ trees, List.Forall₂ (fun text tree => parse text = .ok tree) ["a and (b or c", "d"] trees →
          ∃ tree, parse joined = .ok tree ∧ ∀ names answer,
            (tree.value names answer = true → trees.any (·.value names answer) = true) ∧
            ((∀ text ∈ ["a and (b or c", "d"].dropLast, ∀ level ∈ openGroups text, level ≤ 1) →
              tree.value names answer = trees.any (·.value names answer)) :=
  ⟨by decide, by decide, list_condition_disjunction ["a and (b or c", "d"] (by decide) (by decide)⟩

/-- The first member leaves two groups open.  The parenthesis behind it closes one of them, and the
second member stands in the other: the joined condition is `x and ((y or z) or c)`.  The second
member alone makes the list hold, but not this condition. -/
theorem second_member_within_first :
    conditionOf (.list [.text "x and (y or (z", .text "c"]) = .ok "(x and (y or (z) or (c)" ∧
      parse "x and (y or (z" =
        .ok (.and (.selection "x") (.or (.selection "y") (.selection "z"))) ∧
      parse "c" = .ok (.selection "c") ∧
      ∃ tree, parse "(x and (y or (z) or (c)" = .ok tree ∧
        tree.value ["x", "y", "z", "c"] (· = "c") = false ∧
        (Tree.selection "c").value ["x", "y", "z", "c"] (· = "c") = true :=
  ⟨by decide +kernel, by decide +kernel, by decide +kernel,
    .and (.selection "x") (.or (.or (.selection "y") (.selection "z")) (.selection "c")),
    by decide +kernel, by decide +kernel, by decide +kernel⟩

-- Parentheses that close nothing in their member may be paired in the joined text.
example : ∃ tree, parse (joinedMembers ["a) or (b", "c"]) = .ok tree ∧
    parse "a) or (b" = .error (.syntaxError (.unexpected ⟨.closeParen, ")", 1⟩)) :=
  ⟨.or (.or (.selection "a") (.selection "b")) (.selection "c"), by decide +kernel,
    by decide +kernel⟩

end LogAlert.Sigma
