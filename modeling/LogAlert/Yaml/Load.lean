/-
# LogAlert.Yaml.Load -- values from YAML texts

`load` reads the value of a text: the characters are checked, the text is split into tokens, these
form a tree, and the tree is turned into a value. Collections are checked level by level (`checked`)
before they are built, so that of several faults the one nearest to the root is reported.

A mapping may take over the entries of others under the key `<<`; its own entries win over these.
-/
import LogAlert.Yaml.Tokens
import LogAlert.Yaml.Node
import LogAlert.Yaml.Atom

set_option autoImplicit false

namespace LogAlert.Yaml

namespace Node

mutual

/-- The number of nodes of the tree. -/
def size : Node → Nat
  | .scalar _ _ => 1
  | .sequence _ items => sizeList items + 1
  | .mapping _ entries => sizeEntries entries + 1

@[inherit_doc size]
def sizeList : List Node → Nat
  | [] => 0
  | x :: rest => size x + sizeList rest

@[inherit_doc size]
def sizeEntries : List (Node × Node) → Nat
  | [] => 0
  | (k, v) :: rest => size k + size v + sizeEntries rest

end

/-- The type of a node. -/
def tag : Node → Tag
  | .scalar t _ => t
  | .sequence t _ => t
  | .mapping t _ => t

/-- The text of a scalar; a mapping that has a value of its own has the text of that. -/
def scalarText : Nat → Node → Except Error String
  | _, .scalar _ text => .ok text
  | 0, _ => .error .malformed
  | fuel + 1, .mapping _ entries =>
    match entries.find? fun entry => entry.1.tag = .value with
    | some (_, v) => scalarText fuel v
    | none => .error .malformed
  | _ + 1, .sequence _ _ => .error .malformed

/-- The key of a mapping's own value is a text when the mapping is read as such. -/
def asKey : Node → Node
  | .scalar .value text => .scalar .text text
  | node => node

mutual

/-- The entries of a mapping, with those it takes over in front. -/
def mergedEntries : Nat → List (Node × Node) → Except Error (List (Node × Node))
  | 0, _ => .error .malformed
  | fuel + 1, entries => do
    let taken ← takenOver fuel entries
    let own := entries.filter fun entry => entry.1.tag ≠ .merge
    return taken ++ own.map fun (k, v) => (k.asKey, v)

/-- The entries that are taken over from the values of the merge keys. -/
def takenOver : Nat → List (Node × Node) → Except Error (List (Node × Node))
  | _, [] => .ok []
  | 0, _ :: _ => .error .malformed
  | fuel + 1, (k, v) :: rest => do
    let here ←
      if k.tag = .merge then
        match v with
        | .mapping _ entries => mergedEntries fuel entries
        | .sequence _ items => fromAll fuel items
        | .scalar _ _ => .error .malformed
      else .ok []
    let more ← takenOver fuel rest
    return here ++ more

/-- The entries of several mappings, those of the last one first. -/
def fromAll : Nat → List Node → Except Error (List (Node × Node))
  | _, [] => .ok []
  | 0, _ :: _ => .error .malformed
  | fuel + 1, item :: rest => do
    match item with
    | .mapping _ entries =>
      let here ← mergedEntries fuel entries
      let more ← fromAll fuel rest
      return more ++ here
    | _ => .error .malformed

end

/-- The single entry of a mapping. -/
def singleEntry : Node → Except Error (Node × Node)
  | .mapping _ [entry] => .ok entry
  | _ => .error .malformed

/-- Nodes of this type are collections, which cannot be keys. -/
def isCollectionTag (t : Tag) : Bool :=
  t = .sequence || t = .mapping || t = .omap || t = .pairs || t = .set

/-- Check a part of a collection: a scalar must have a value, a collection is left for later. -/
def checkPart (fuel : Nat) (part : Node) : Except Error (List Node) :=
  if isCollectionTag part.tag then .ok [part]
  else do
    let text ← match part with
      | .scalar _ text => pure text
      | _ => if (atom? part.tag "").isSome then scalarText fuel part else .error .malformed
    match atom? part.tag text with
    | some result => do
      let _ ← result
      return []
    | none => .error .malformed

/-- Check the keys and values of a mapping in their order. No key may be a collection. -/
def checkEntries (fuel : Nat) : List (Node × Node) → Except Error (List Node)
  | [] => .ok []
  | (k, v) :: rest => do
    let later ← checkPart fuel k
    if !later.isEmpty then .error .malformed
    else
      let here ← checkPart fuel v
      let more ← checkEntries fuel rest
      return here ++ more

/-- Check the parts of a collection; the result lists the collections among them. -/
def checkLevel (fuel : Nat) : Node → Except Error (List Node)
  | .sequence .sequence items => do return (← items.mapM (checkPart fuel)).flatten
  | .sequence .omap items => ordered items
  | .sequence .pairs items => ordered items
  | .mapping .mapping entries => mergedEntries fuel entries >>= checkEntries fuel
  | .mapping .set entries => mergedEntries fuel entries >>= checkEntries fuel
  | _ => .error .malformed
where
  /-- Each item is a mapping of one entry, whose key may be anything. -/
  ordered : List Node → Except Error (List Node)
    | [] => .ok []
    | item :: rest => do
      let (k, v) ← singleEntry item
      let key ← checkPart fuel k
      let value ← checkPart fuel v
      let more ← ordered rest
      return key ++ value ++ more

/-- Check collections level by level. -/
def checked : Nat → List Node → Except Error Unit
  | _, [] => .ok ()
  | 0, _ :: _ => .error .malformed
  | fuel + 1, level => do
    let below ← level.mapM (checkLevel (fuel + 1))
    checked fuel below.flatten

/-- The value of a node; `fuel` bounds its depth. -/
def value : Nat → Node → Except Error Value
  | 0, _ => .error .malformed
  | fuel + 1, node =>
    let entriesOf (entries : List (Node × Node)) : Except Error (List (Value × Value)) := do
      let merged ← mergedEntries (fuel + 1) entries
      let pairs ← merged.mapM fun (k, v) => do
        return ((← value fuel k), (← value fuel v))
      return pairs.foldl (fun done (k, v) => Value.insertIn done k v) []
    let ordered (items : List Node) : Except Error Value := do
      let pairs ← items.mapM fun item => do
        let (k, v) ← singleEntry item
        return Value.pair (← value fuel k) (← value fuel v)
      return .list pairs
    match node with
    | .sequence .sequence items => do return .list (← items.mapM (value fuel))
    | .sequence .omap items => ordered items
    | .sequence .pairs items => ordered items
    | .mapping .mapping entries => do return .map (← entriesOf entries)
    | .mapping .set entries => do return .set ((← entriesOf entries).map (·.1))
    | node => do
      let text ← scalarText (fuel + 1) node
      match atom? node.tag text with
      | some result => result
      | none => .error .malformed

/-- The value of the root of a document. -/
def rootValue (root : Node) : Except Error Value := do
  let fuel := root.size + 1
  let later ← checkPart fuel root
  checked fuel later
  value fuel root

end Node

/-- The value of a YAML text in one of its readings; a text without a document is null. -/
def read (surrogates : Surrogates) (text : String) : Except Error Value :=
  if text.toList.all isAllowed then do
    match ← Node.ofTokens (tokens surrogates text) with
    | some root => root.rootValue
    | none => return .null
  else .error .malformed

/-- The value of a YAML text, with replacement characters for surrogates. -/
def load (text : String) : Except Error Value := read .replaced text

end LogAlert.Yaml
