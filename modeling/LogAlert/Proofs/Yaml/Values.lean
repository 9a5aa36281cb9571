/-
# LogAlert.Proofs.Yaml.Values -- how the value of a document is made

The nodes of a document are evaluated with fuel, in several steps that may all fail.  `Made` says
what comes out when none of them does: the value of a scalar, a list of values, a list of pairs, a
mapping that is written entry by entry, or a set.  Whatever is read from a YAML text is made in this
way (`load_made`), so that a fact about all such values is proved by induction over `Made`.
-/
import LogAlert.Proofs.Outcome
import LogAlert.Yaml.Load

set_option autoImplicit false

namespace LogAlert.Yaml

/-- The value of a scalar. -/
inductive ScalarMade : Value → Prop where
  | null : ScalarMade .null
  | bool (truth : Bool) : ScalarMade (.bool truth)
  | int (number : Int) : ScalarMade (.int number)
  | float {chars : String} {number : Binary64} (read : floatValue chars = .ok number) :
    ScalarMade (.float number)
  | text (chars : String) : ScalarMade (.text chars)
  | bytes (octets : List UInt8) : ScalarMade (.bytes octets)
  | date (day : Time.Date) : ScalarMade (.date day)
  | time (moment : Time.DateTime) : ScalarMade (.time moment)

/-- The value of a node. -/
inductive Made : Value → Prop where
  | scalar {v : Value} (made : ScalarMade v) : Made v
  | list {items : List Value} (each : ∀ v ∈ items, Made v) : Made (.list items)
  /-- The entries of an ordered mapping. -/
  | ordered {items : List Value} (each : ∀ v ∈ items, ∃ first second, v = .pair first second) :
    Made (.list items)
  | set (items : List Value) : Made (.set items)
  | map {pairs : List Value.Entry} (each : ∀ pair ∈ pairs, Made pair.2) :
    Made (.map (pairs.foldl (fun done (k, v) => Value.insertIn done k v) []))

theorem made_of_timestampValue {text : String} {v : Value} (read : timestampValue text = .ok v) :
    ScalarMade v := by
  unfold timestampValue at read
  dsimp only at read
  split at read
  · split at read
    · cases read
      exact .date _
    · cases read
  · split at read
    · cases read
      exact .time _
    · cases read

theorem made_of_atom? {tag : Tag} {text : String} {v : Value} (read : atom? tag text = some (.ok v)) :
    ScalarMade v := by
  have lifted {α : Type} {f : α → Value} {x : Except Fault α}
      (same : some ((x.map f).mapError Error.scalar) = some (.ok v)) :
      ∃ a, x = .ok a ∧ v = f a := by
    cases x with
    | error fault => cases same
    | ok a =>
        cases same
        exact ⟨a, rfl, rfl⟩
  cases tag <;> simp only [atom?] at read
  case null =>
    cases read
    exact .null
  case text =>
    cases read
    exact .text _
  case bool =>
    obtain ⟨a, -, rfl⟩ := lifted read
    exact .bool a
  case int =>
    obtain ⟨a, -, rfl⟩ := lifted read
    exact .int a
  case float =>
    obtain ⟨x, made, rfl⟩ := lifted read
    exact .float made
  case timestamp =>
    obtain ⟨w, made, rfl⟩ := lifted read
    unfold timeValue at made
    split at made
    · exact made_of_timestampValue made
    · cases made
  case binary =>
    split at read
    · split at read
      · cases read
        exact .bytes _
      · cases read
    · cases read
  all_goals cases read

/-! ## Collections -/

section Collections

variable {fuel : Nat}

/-- The entries of a mapping, evaluated one by one. -/
theorem entries_made (each : ∀ {node : Node} {v : Value}, node.value fuel = .ok v → Made v)
    {pairs : List (Node × Node)} {values : List Value.Entry}
    (evaluated : (pairs.mapM fun pair => do
      return ((← pair.1.value fuel), (← pair.2.value fuel))) = .ok values) :
    ∀ pair ∈ values, Made pair.2 := by
  intro pair member
  obtain ⟨nodes, -, one⟩ := mem_of_mapM_eq_ok evaluated member
  obtain ⟨key, -, one⟩ := bind_eq_ok.1 one
  obtain ⟨value, here, one⟩ := bind_eq_ok.1 one
  cases one
  exact each here

/-- The pairs of an ordered mapping. -/
theorem pairs_made {items : List Node} {pairs : List Value}
    (evaluated : (items.mapM fun item => do
      let nodes ← Node.singleEntry item
      return Value.pair (← nodes.1.value fuel) (← nodes.2.value fuel)) = .ok pairs) :
    Made (.list pairs) := by
  refine .ordered fun pair member => ?_
  obtain ⟨item, -, one⟩ := mem_of_mapM_eq_ok evaluated member
  obtain ⟨nodes, -, one⟩ := bind_eq_ok.1 one
  obtain ⟨key, -, one⟩ := bind_eq_ok.1 one
  obtain ⟨value, -, one⟩ := bind_eq_ok.1 one
  cases one
  exact ⟨key, value, rfl⟩

end Collections

theorem value_made {fuel : Nat} {node : Node} {v : Value} (read : node.value fuel = .ok v) :
    Made v := by
  induction fuel generalizing node v with
  | zero => cases read
  | succ fuel ih =>
      rw [Node.value.eq_def] at read
      dsimp only at read
      split at read
      · obtain ⟨items, evaluated, read⟩ := bind_eq_ok.1 read
        cases read
        refine .list fun w member => ?_
        obtain ⟨part, -, one⟩ := mem_of_mapM_eq_ok evaluated member
        exact ih one
      · obtain ⟨pairs, evaluated, read⟩ := bind_eq_ok.1 read
        cases read
        exact pairs_made evaluated
      · obtain ⟨pairs, evaluated, read⟩ := bind_eq_ok.1 read
        cases read
        exact pairs_made evaluated
      · obtain ⟨found, made, read⟩ := bind_eq_ok.1 read
        obtain ⟨merged, -, made⟩ := bind_eq_ok.1 made
        obtain ⟨pairs, evaluated, made⟩ := bind_eq_ok.1 made
        cases read
        cases made
        exact .map (entries_made ih evaluated)
      · obtain ⟨merged, -, read⟩ := bind_eq_ok.1 read
        cases read
        exact .set _
      · obtain ⟨text, -, read⟩ := bind_eq_ok.1 read
        split at read
        · rename_i found
          exact .scalar (made_of_atom? (found.trans (congrArg some read)))
        · cases read

/-- **How the value of a YAML text is made.** -/
theorem load_made {text : String} {v : Value} (loaded : load text = .ok v) : Made v := by
  unfold load read at loaded
  split at loaded
  · obtain ⟨root, -, loaded⟩ := bind_eq_ok.1 loaded
    cases root with
    | none =>
        cases loaded
        exact .scalar .null
    | some root =>
        obtain ⟨later, -, loaded⟩ := bind_eq_ok.1 loaded
        obtain ⟨_, -, evaluated⟩ := bind_eq_ok.1 loaded
        exact value_made evaluated
  · cases loaded

end LogAlert.Yaml
