/-
# LogAlert.Proofs.Condition.Alternatives -- conditions in parentheses, joined by `or`

A condition may be put together from others: each in parentheses, and `or` between them.  This is
done on the texts, so a member may leave groups open or close groups that are not its own, and then
the parentheses around it are not a pair.  The closing one closes the innermost group that the
member has left open, and what comes behind it stands within the others (`run_grouped`).

* `exists_readFrom_alternatives`: if all members can be read, their alternatives can.  These hold
  only if a member does; they mean the disjunction of the members if no member but the last leaves
  more than one group open.
* `forall_read_of_alternatives`: if the alternatives can be read and no member closes a group that
  it has not opened, then all members can be read.

Both go through the members from the left, within whatever groups the members before have left open.
-/
import LogAlert.Proofs.Condition.Words
import LogAlert.Condition.Evaluation

set_option autoImplicit false

namespace LogAlert.Condition

/-! ## The words of alternatives -/

/-- The parenthesis before a member. -/
def opening : Token := ⟨.openParen, "(", 0⟩

/-- The parenthesis behind it. -/
def closing : Token := ⟨.closeParen, ")", 0⟩

/-- The word between two members. -/
def orWord : Token := ⟨.or, "or", 0⟩

/-- The words in parentheses. -/
def grouped (words : List Token) : List Token := opening :: (words ++ [closing])

/-- The words of the members, each in parentheses, with `or` between them. -/
def alternatives (members : List (List Token)) : List Token :=
  [orWord].intercalate (members.map grouped)

/-- The text in parentheses. -/
def bracketed (chars : List Char) : List Char := '(' :: (chars ++ [')'])

theorem alternatives_cons_cons (words words' : List Token) (members : List (List Token)) :
    alternatives (words :: words' :: members) =
      grouped words ++ orWord :: alternatives (words' :: members) := by
  simp [alternatives, List.intercalate_cons_cons]

theorem wordsFrom_bracketed (chars rest : List Char) :
    wordsFrom [] (bracketed chars ++ rest) = (wordsFrom [] chars).bind fun words =>
      (wordsFrom [] rest).map fun more => grouped words ++ more := by
  have opens : wordsFrom [] ('(' :: (chars ++ ')' :: rest)) =
      (wordsFrom [] (chars ++ ')' :: rest)).map (opening :: ·) :=
    wordsFrom_mark (by decide) [] _
  have closes : wordsFrom [] (')' :: rest) = (wordsFrom [] rest).map (closing :: ·) :=
    wordsFrom_mark (by decide) [] rest
  have quits : Quits (')' :: rest) := by
    rintro _ ⟨⟩
    decide
  rw [bracketed, List.cons_append, List.append_assoc, List.singleton_append, opens,
    wordsFrom_append quits, closes]
  cases wordsFrom [] chars with
  | none => rfl
  | some words => simp [grouped, Function.comp_def]

theorem wordsFrom_or (rest : List Char) :
    wordsFrom [] (' ' :: 'o' :: 'r' :: ' ' :: rest) = (wordsFrom [] rest).map (orWord :: ·) := by
  have blank : mark ' ' = some [] := by decide
  have word : endWord ['o', 'r'] 0 = [orWord] := by decide
  rw [wordsFrom_mark (by decide), blank, wordsFrom, if_pos (by decide), wordsFrom,
    if_pos (by decide), wordsFrom_mark (by decide), blank, List.nil_append, List.singleton_append,
    word]
  simp [endWord, Function.comp_def]

/-- The words of texts that are put in parentheses and joined are those of the texts. -/
theorem wordsFrom_alternatives {members : List (List Char)} {all : List Token} :
    wordsFrom [] ([' ', 'o', 'r', ' '].intercalate (members.map bracketed)) = some all ↔
      ∃ words, List.Forall₂ (fun chars words => wordsFrom [] chars = some words) members words ∧
        all = alternatives words := by
  induction members generalizing all with
  | nil =>
      simp only [List.forall₂_nil_left_iff, exists_eq_left]
      exact ⟨fun same => (Option.some.inj same).symm, fun same => same ▸ rfl⟩
  | cons chars members ih =>
      cases members with
      | nil =>
          have alone : wordsFrom [] (bracketed chars) = (wordsFrom [] chars).map grouped := by
            rw [← List.append_nil (bracketed chars), wordsFrom_bracketed]
            cases wordsFrom [] chars <;> simp [wordsFrom, endWord]
          rw [List.map_singleton, List.intercalate_singleton, alone, Option.map_eq_some_iff]
          simp [List.forall₂_cons_left_iff, alternatives, eq_comm (a := grouped _)]
      | cons chars' members =>
          have split : [' ', 'o', 'r', ' '].intercalate
                ((chars :: chars' :: members).map bracketed) =
              bracketed chars ++ ' ' :: 'o' :: 'r' :: ' ' ::
                [' ', 'o', 'r', ' '].intercalate ((chars' :: members).map bracketed) := by
            simp [List.intercalate_cons_cons]
          rw [split, wordsFrom_bracketed, wordsFrom_or]
          constructor
          · intro joined
            obtain ⟨words, one, joined⟩ := Option.bind_eq_some_iff.1 joined
            obtain ⟨_, behind, rfl⟩ := Option.map_eq_some_iff.1 joined
            obtain ⟨_, others, rfl⟩ := Option.map_eq_some_iff.1 behind
            obtain ⟨more, each, rfl⟩ := ih.1 others
            obtain ⟨words', more, -, -, rfl⟩ := List.forall₂_cons_left_iff.1 each
            exact ⟨words :: words' :: more, .cons one each,
              (alternatives_cons_cons words words' more).symm⟩
          · rintro ⟨_, each, rfl⟩
            obtain ⟨words, more, one, behind, rfl⟩ := List.forall₂_cons_left_iff.1 each
            have others := ih.2 ⟨more, behind, rfl⟩
            obtain ⟨words', more, -, -, rfl⟩ := List.forall₂_cons_left_iff.1 behind
            rw [one, others, alternatives_cons_cons]
            rfl

/-! ## Reading a member -/

open Progress

section

variable {words rest : List Token} {tree : Tree}

/-- Behind a member in parentheses: the closing one closes the innermost group that is open in the
member, or the group around it if there is none.  If all groups were closed there, the tree would be
that of the member by itself. -/
theorem run_grouped (read : start.readFrom words = some tree) (frame : Frame)
    (groups : List Frame) :
    ∃ left more,
      (∀ rest, run ⟨.term frame, groups⟩ (grouped words ++ rest) = run ⟨.behind left, more⟩ rest) ∧
      fillAll left more = fillAll (frame.fill tree) groups ∧
      ((∀ level ∈ groupsAfter Token.side 0 words, level ≤ 1) →
        (left = frame.fill tree ∧ more = groups) ∨ (left = tree ∧ more = frame :: groups)) := by
  obtain ⟨⟨place, own⟩, ran, finished⟩ := Option.bind_eq_some_iff.1 read
  have level : groupsAfter Token.side 0 words = some own.length := level_of_run ran
  cases place with
  | term | of | pattern => cases finished
  | behind inner =>
      cases finished
      have inside (rest : List Token) : run ⟨.term frame, groups⟩ (grouped words ++ rest) =
          (step ⟨.behind inner, own ++ frame :: groups⟩ closing).bind (·.run rest) := by
        have opened : step ⟨.term frame, groups⟩ opening =
            some (start.within (frame :: groups)) := rfl
        rw [grouped, List.cons_append, run_cons, opened, Option.bind_some, List.append_assoc,
          run_append, run_within ran]
        rfl
      cases own with
      | nil =>
          refine ⟨frame.fill inner, groups, fun rest => inside rest, rfl, fun _ => .inl ⟨rfl, rfl⟩⟩
      | cons innermost own =>
          refine ⟨innermost.fill inner, own ++ frame :: groups, fun rest => inside rest, ?_,
            fun few => .inr ?_⟩
          · simp [fillAll]
          · obtain rfl : own = [] := by
              have atMost := few _ level
              rw [List.length_cons] at atMost
              exact List.length_eq_zero_iff.1 (by omega)
            exact ⟨rfl, rfl⟩

/-- A member that closes no group but its own can be read by itself if it is read in parentheses. -/
theorem exists_read_of_grouped {frame : Frame} {groups : List Frame} {after : Progress}
    (own : (groupsAfter Token.side 0 words).isSome)
    (ran : run ⟨.term frame, groups⟩ (grouped words) = some after) :
    ∃ tree, start.readFrom words = some tree := by
  obtain ⟨level, own⟩ := Option.isSome_iff_exists.1 own
  rw [grouped, run_cons] at ran
  change (run (start.within (frame :: groups)) (words ++ [closing])) = some after at ran
  rw [run_append] at ran
  obtain ⟨behind, inside, closed⟩ := Option.bind_eq_some_iff.1 ran
  have ownGroups : groupsAfter Token.side start.groups.length words = some level := own
  obtain ⟨⟨place, left⟩, alone, rfl⟩ := run_within_inv ownGroups inside
  cases place with
  | behind inner => exact ⟨_, by rw [readFrom, alone]; rfl⟩
  | term | of | pattern => cases closed

end

/-! ## What a condition means within groups -/

section

variable (names : List String) (answer : String → Bool)

/-- The value, once the value of the term is there. -/
def Frame.value (frame : Frame) (term : Bool) : Bool :=
  let operand := Bool.not^[frame.negations] term
  match frame.before with
  | none => operand
  | some (.and, left) => left.meaning names answer && operand
  | some (.or, left) => left.meaning names answer || operand

/-- The value, once all these groups are closed. -/
def valueAll (value : Bool) (groups : List Frame) : Bool :=
  groups.foldl (fun value frame => frame.value names answer value) value

theorem value_joined_or (left : Tree) (term : Bool) :
    (Frame.joined .or left).value names answer term = (left.meaning names answer || term) := rfl

theorem meaning_fill (frame : Frame) (term : Tree) :
    (frame.fill term).meaning names answer =
      frame.value names answer (term.meaning names answer) := by
  have negated (count : Nat) : (Tree.not^[count] term).meaning names answer =
      Bool.not^[count] (term.meaning names answer) := by
    induction count with
    | zero => rfl
    | succ count ih =>
        rw [Function.iterate_succ_apply', Function.iterate_succ_apply', Tree.meaning, ih]
  obtain ⟨before, negations⟩ := frame
  cases before with
  | none => exact negated negations
  | some joined =>
      obtain ⟨how, left⟩ := joined
      cases how with
      | and => exact congrArg (left.meaning names answer && ·) (negated negations)
      | or => exact congrArg (left.meaning names answer || ·) (negated negations)

theorem meaning_fillAll (tree : Tree) (groups : List Frame) :
    (fillAll tree groups).meaning names answer =
      valueAll names answer (tree.meaning names answer) groups := by
  induction groups generalizing tree with
  | nil => rfl
  | cons frame groups ih =>
      rw [fillAll_cons, ih, meaning_fill]
      rfl

end

/-- One more alternative to what is put into the frame is one more alternative to the whole. -/
def Frame.Widens (frame : Frame) : Prop :=
  ∀ names answer a b,
    frame.value names answer (a || b) = (frame.value names answer a || b)

theorem widens_start : Frame.start.Widens := fun _ _ _ _ => rfl

theorem widens_or (left : Tree) : (Frame.joined .or left).Widens := by
  intro names answer a b
  rw [value_joined_or, value_joined_or, Bool.or_assoc]

/-! ## Reading all members -/

/-- None of the members but the last leaves more than one group open. -/
def MostlyClosed (members : List (List Token)) : Prop :=
  ∀ member ∈ members.dropLast, ∀ level ∈ groupsAfter Token.side 0 member, level ≤ 1

section

variable {members : List (List Token)} {trees : List Tree}

/-- What the members contribute where they stand: nothing if all of them are false, and their
disjunction if none but the last leaves more than one group open. -/
theorem exists_readFrom_within {words : List Token} {first : Tree}
    (one : start.readFrom words = some first)
    (each : List.Forall₂ (fun words tree => start.readFrom words = some tree) members trees)
    {frame : Frame} (widens : frame.Widens) (groups : List Frame) :
    ∃ tree, readFrom ⟨.term frame, groups⟩ (alternatives (words :: members)) = some tree ∧
      ∀ names answer,
        (first :: trees).any (·.meaning names answer) = false ∨ MostlyClosed (words :: members) →
          tree.meaning names answer = valueAll names answer
            (frame.value names answer ((first :: trees).any (·.meaning names answer))) groups := by
  induction each generalizing words first frame groups with
  | nil =>
      obtain ⟨left, groups', ran, same, -⟩ := run_grouped one frame groups
      refine ⟨fillAll left groups', ?_, fun names answer _ => ?_⟩
      · have alone : alternatives [words] = grouped words ++ [] := by simp [alternatives]
        rw [alone, readFrom, ran]
        rfl
      · rw [same, meaning_fillAll, meaning_fill]
        simp
  | @cons words' second members trees two each ih =>
      obtain ⟨left, groups', ran, same, few⟩ := run_grouped one frame groups
      obtain ⟨tree, read, meaning⟩ := ih two (widens_or left) groups'
      refine ⟨tree, ?_, fun names answer accounted => ?_⟩
      · rw [alternatives_cons_cons, readFrom, ran]
        exact read
      have later := meaning names answer (accounted.imp
        (fun none => (Bool.or_eq_false_iff.1 none).2)
        fun closed member inList => closed member (List.mem_cons_of_mem _ inList))
      rw [List.any_cons] at accounted ⊢
      rw [later, value_joined_or]
      rcases accounted with none | closed
      · obtain ⟨noFirst, noOthers⟩ := Bool.or_eq_false_iff.1 none
        rw [noOthers, Bool.or_false, ← meaning_fillAll, same, meaning_fillAll, meaning_fill,
          Bool.or_false]
      · rcases few (closed words List.mem_cons_self) with ⟨rfl, rfl⟩ | ⟨rfl, rfl⟩
        · rw [meaning_fill, widens]
        -- the other members stand within the parenthesis that was put before this one
        · rfl

/-- **Members that can be read can be read as alternatives.**  These hold only if a member does, and
if a member does, provided that no member but the last leaves more than one group open. -/
theorem exists_readFrom_alternatives (nonempty : members ≠ [])
    (each : List.Forall₂ (fun words tree => start.readFrom words = some tree) members trees) :
    ∃ tree, start.readFrom (alternatives members) = some tree ∧
      ∀ names answer,
        (tree.meaning names answer = true → trees.any (·.meaning names answer) = true) ∧
        (MostlyClosed members →
          tree.meaning names answer = trees.any (·.meaning names answer)) := by
  cases each with
  | nil => exact absurd rfl nonempty
  | cons one each =>
      obtain ⟨tree, read, meaning⟩ := exists_readFrom_within one each widens_start []
      refine ⟨tree, read, fun names answer => ⟨fun holds => ?_, fun closed => ?_⟩⟩
      · by_contra none
        rw [Bool.not_eq_true] at none
        rw [meaning names answer (.inl none), none] at holds
        cases holds
      · exact meaning names answer (.inr closed)

/-- **Alternatives that can be read have members that can be read**, if each of these closes no
group but its own. -/
theorem forall_read_of_alternatives
    (own : ∀ words ∈ members, (groupsAfter Token.side 0 words).isSome) {frame : Frame}
    {groups : List Frame} {tree : Tree}
    (read : readFrom ⟨.term frame, groups⟩ (alternatives members) = some tree) :
    ∀ words ∈ members, ∃ tree, start.readFrom words = some tree := by
  induction members generalizing frame groups with
  | nil => nofun
  | cons words members ih =>
      obtain ⟨ownFirst, ownOthers⟩ := List.forall_mem_cons.1 own
      cases members with
      | nil =>
          obtain ⟨after, ran, -⟩ := Option.bind_eq_some_iff.1 read
          have alone : alternatives [words] = grouped words := by simp [alternatives]
          rw [alone] at ran
          exact List.forall_mem_singleton.2 (exists_read_of_grouped ownFirst ran)
      | cons words' members =>
          rw [alternatives_cons_cons, readFrom, run_append] at read
          obtain ⟨last, ran, finished⟩ := Option.bind_eq_some_iff.1 read
          obtain ⟨after, ranFirst, ranOthers⟩ := Option.bind_eq_some_iff.1 ran
          obtain ⟨first, one⟩ := exists_read_of_grouped ownFirst ranFirst
          obtain ⟨left, groups', same, -⟩ := run_grouped one frame groups
          have reached := same []
          rw [List.append_nil, ranFirst] at reached
          cases reached
          have others : readFrom ⟨.term (.joined .or left), groups'⟩
              (alternatives (words' :: members)) = some tree :=
            Option.bind_eq_some_iff.2 ⟨last, ranOthers, finished⟩
          exact List.forall_mem_cons.2 ⟨⟨first, one⟩, ih ownOthers others⟩

end

end LogAlert.Condition
