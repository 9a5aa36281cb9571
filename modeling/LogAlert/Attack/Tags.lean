/-
# LogAlert.Attack.Tags -- tactics and techniques named by tags

A tag such as `attack.t1059.001` names a technique, wherever it stands in the tag; a tag that is
`attack.` and the name of a tactic names that tactic. Case does not matter. `techniquesNamed` and
`tacticsNamed` collect what a list of tags names, without repetitions, in the order of the tags. A
known technique also names its tactic; tactics named by themselves come first.
-/
import LogAlert.Attack.Catalog
import LogAlert.Text.Case
import LogAlert.Text.Digit

set_option autoImplicit false

namespace LogAlert.Attack

/-- The items without those that occur earlier in the list or in `seen`. -/
def withoutRepeats (seen : List String) : List String → List String
  | [] => []
  | x :: rest =>
    if x ∈ seen then withoutRepeats seen rest else x :: withoutRepeats (x :: seen) rest

/-- The first occurrence of each item. -/
def distinct (items : List String) : List String := withoutRepeats [] items

/-- As many digits, and the characters behind them. -/
def takeDigits? (count : Nat) (chars : List Char) : Option (List Char × List Char) :=
  let head := chars.take count
  if head.length = count ∧ head.all Text.isDigit then some (head, chars.drop count) else none

/-- The number of a technique at the start of the characters, with the number of a subtechnique if
one follows. -/
def numberAt? (chars : List Char) : Option String := do
  let (main, rest) ← takeDigits? 4 chars
  match rest with
  | '.' :: more =>
    match takeDigits? 3 more with
    | some (sub, _) => return String.ofList ('T' :: main ++ '.' :: sub)
    | none => return String.ofList ('T' :: main)
  | _ => return String.ofList ('T' :: main)

/-- The mark in front of a technique's number. -/
def techniqueMark : List Char := "attack.t".toList

/-- The first technique named in the characters. -/
def firstTechnique? : List Char → Option String
  | [] => none
  | c :: rest =>
    let here :=
      if techniqueMark.isPrefixOf (c :: rest) then
        numberAt? ((c :: rest).drop techniqueMark.length)
      else none
    match here with
    | some id => some id
    | none => firstTechnique? rest

/-- The technique that a tag names. -/
def techniqueNamed? (tag : String) : Option String := firstTechnique? (Text.lower tag).toList

/-- The tactic that a tag names by itself. A line break at the end of the tag is passed over. -/
def tacticNamed? (tag : String) : Option String :=
  (tactics.find? fun t =>
    let written := "attack." ++ t.name
    let lowered := Text.lower tag
    lowered = written || lowered = written ++ "\n").map (·.name)

/-- The techniques that the tags name. -/
def techniquesNamed (tags : List String) : List String :=
  distinct (tags.filterMap techniqueNamed?)

/-- The tactics that the tags name by themselves, then those of the known techniques they name. -/
def tacticsNamed (tags : List String) : List String :=
  distinct (tags.filterMap tacticNamed? ++
    (techniquesNamed tags).filterMap fun id => (technique? id).map (·.tactic))

end LogAlert.Attack
