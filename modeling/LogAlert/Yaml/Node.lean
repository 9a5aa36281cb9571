/-
# LogAlert.Yaml.Node -- the tree of a YAML document

A document is one node: a scalar, a sequence or a mapping, each with its type. `Node.ofTokens` builds
the tree from the tokens of a text that holds at most one document. References are replaced by the
nodes they refer to; a collection that is referred to inside itself is empty there.

Every token that is passed shortens the list of tokens, and at most three steps lie between two
such passes, which bounds the fuel.
-/
import LogAlert.Yaml.Tag

set_option autoImplicit false

namespace LogAlert.Yaml

/-- A node of a document. -/
inductive Node where
  | scalar (tag : Tag) (text : String)
  | sequence (tag : Tag) (items : List Node)
  | mapping (tag : Tag) (entries : List (Node × Node))
deriving Repr

namespace Node

/-- What is left of the tokens, the anchored nodes by name, and the abbreviations of tags. -/
structure Reading where
  tokens : List Token
  anchors : List (String × Node)
  handles : List (String × String)

/-- A step of the reading. -/
abbrev Step := StateT Reading (Except Error)

/-- The next token. -/
def next : Step Token := do return (← get).tokens.head?.getD .streamEnd

/-- Pass the next token. -/
def pass : Step Unit := modify fun s => { s with tokens := s.tokens.tail }

/-- The next token cannot stand here. -/
def refuse {α : Type} : Step α := do
  match ← next with
  | .broken e => throw e
  | _ => throw .malformed

/-- Pass the next token, which must be the given one. -/
def require (token : Token) : Step Unit := do
  if (← next) = token then pass else refuse

/-- Pass the next token if it is the given one. -/
def skipIf (token : Token) : Step Bool := do
  if (← next) = token then
    pass
    return true
  else return false

/-- The next token is one of these. -/
def nextIn (tokens : List Token) : Step Bool := do return (← next) ∈ tokens

/-- An absent scalar. -/
def empty : Node := .scalar .null ""

/-- The abbreviations that every document knows. -/
def commonHandles : List (String × String) := [("!", "!"), ("!!", tagDomain)]

/-- The tag and the anchor in front of a node. -/
structure Properties where
  anchor : Option String
  /-- The full name of the tag; a lone exclamation mark stands for the type by form. -/
  tag : Option String

/-- The anchor that stands here, if one does. -/
def anchorHere : Step (Option String) := do
  match ← next with
  | .anchor name =>
    pass
    return some name
  | _ => return none

/-- The tag that stands here, if one does. -/
def tagHere? : Step (Option (Option String × String)) := do
  match ← next with
  | .tag handle rest =>
    pass
    return some (handle, rest)
  | _ => return none

/-- The full name of a tag. -/
def fullTag : Option String × String → Step String
  | (none, rest) => return rest
  | (some handle, rest) => do
    match (← get).handles.lookup handle with
    | some start => return start ++ rest
    | none => throw .malformed

/-- The properties of a node, in either order. -/
def properties : Step Properties := do
  let first ← anchorHere
  let tag ← tagHere?
  let anchor ← if first.isSome || tag.isNone then pure first else anchorHere
  match tag with
  | some tag => return ⟨anchor, some (← fullTag tag)⟩
  | none => return ⟨anchor, none⟩

/-- The type of a scalar: by its tag, by its form if it is written plainly, and else text. -/
def scalarTag (properties : Properties) (text : String) (plain : Bool) : Tag :=
  match properties.tag with
  | none => if plain then implicitTag text else .text
  | some name => if name = "!" then implicitTag text else .ofName name

/-- The type of a collection: by its tag, or the usual one. -/
def collectionTag (properties : Properties) (usual : Tag) : Tag :=
  match properties.tag with
  | none => usual
  | some name => if name = "!" then usual else .ofName name

/-- Remember an anchored node. An anchor is set only once. -/
def remember (anchor : Option String) (node : Node) : Step Unit := do
  match anchor with
  | none => return
  | some name =>
    let s ← get
    if (s.anchors.lookup name).isSome then throw .malformed
    else set { s with anchors := (name, node) :: s.anchors }

/-- Replace what is remembered for an anchor. -/
def complete (anchor : Option String) (node : Node) : Step Node := do
  match anchor with
  | none => return node
  | some name =>
    modify fun s => { s with anchors := s.anchors.map fun (n, x) =>
      if n = name then (n, node) else (n, x) }
    return node

/-- A scalar with its properties. -/
def scalarNode (properties : Properties) (text : String) (plain : Bool) : Step Node := do
  let node := Node.scalar (scalarTag properties text plain) text
  remember properties.anchor node
  return node

/-- What may stand behind the mark of a key or a value without a node between. -/
def blockMapEnds : List Token := [.key, .value, .blockEnd]

/-- What may stand behind the mark of an entry of a sequence that is not indented. -/
def looseEnds : List Token := [.blockEntry, .key, .value, .blockEnd]

/-- The beginning of a sequence that is still being read. References from inside find this: no value
here is a part of itself, so that a collection which would contain itself is cut off there. -/
def openSequence (tag : Tag) : Node := .sequence tag []

@[inherit_doc openSequence]
def openMapping (tag : Tag) : Node := .mapping tag []

mutual

/-- A node. `block`: block collections may stand here; `loose`: so may a sequence that is not
indented. -/
def node (block loose : Bool) : Nat → Step Node
  | 0 => refuse
  | fuel + 1 => do
    match ← next with
    | .alias name =>
      pass
      match (← get).anchors.lookup name with
      | some node => return node
      | none => throw .malformed
    | _ =>
      let props ← properties
      let sequenceOf (items : Step (List Node)) : Step Node := do
        let tag := collectionTag props .sequence
        remember props.anchor (openSequence tag)
        complete props.anchor (.sequence tag (← items))
      let mappingOf (entries : Step (List (Node × Node))) : Step Node := do
        let tag := collectionTag props .mapping
        remember props.anchor (openMapping tag)
        complete props.anchor (.mapping tag (← entries))
      match (← next), block, loose with
      | .blockEntry, _, true => sequenceOf (looseItems fuel)
      | .scalar text plain, _, _ =>
        pass
        scalarNode props text plain
      | .flowSequenceStart, _, _ => sequenceOf (do pass; flowItems true fuel)
      | .flowMappingStart, _, _ => mappingOf (do pass; flowEntries true fuel)
      | .blockSequenceStart, true, _ => sequenceOf (do pass; blockItems fuel)
      | .blockMappingStart, true, _ => mappingOf (do pass; blockEntries fuel)
      | _, _, _ =>
        if props.anchor.isSome || props.tag.isSome then scalarNode props "" true else refuse

/-- The items of a block sequence up to its end. -/
def blockItems : Nat → Step (List Node)
  | 0 => refuse
  | fuel + 1 => do
    if ← skipIf .blockEntry then
      let item ← if ← nextIn [.blockEntry, .blockEnd] then pure empty else node true false fuel
      return item :: (← blockItems fuel)
    else
      require .blockEnd
      return []

/-- The items of a sequence that is not indented. -/
def looseItems : Nat → Step (List Node)
  | 0 => refuse
  | fuel + 1 => do
    if ← skipIf .blockEntry then
      let item ← if ← nextIn looseEnds then pure empty else node true false fuel
      return item :: (← looseItems fuel)
    else return []

/-- The entries of a block mapping up to its end. -/
def blockEntries : Nat → Step (List (Node × Node))
  | 0 => refuse
  | fuel + 1 => do
    if ← skipIf .key then
      let key ← if ← nextIn blockMapEnds then pure empty else node true true fuel
      let value ←
        if ← skipIf .value then
          if ← nextIn blockMapEnds then pure empty else node true true fuel
        else pure empty
      return (key, value) :: (← blockEntries fuel)
    else
      require .blockEnd
      return []

/-- The value behind a key between brackets, which end with the given token. -/
def flowValue (closing : Token) : Nat → Step Node
  | 0 => refuse
  | fuel + 1 => do
    if ← skipIf .value then
      if ← nextIn [.flowEntry, closing] then return empty else node false false fuel
    else return empty

/-- A key and its value between brackets, behind the mark of the key. -/
def flowPair (closing : Token) : Nat → Step (Node × Node)
  | 0 => refuse
  | fuel + 1 => do
    let key ← if ← nextIn [.value, .flowEntry, closing] then pure empty else node false false fuel
    return (key, ← flowValue closing fuel)

/-- The items of a sequence between brackets up to its end. -/
def flowItems (first : Bool) : Nat → Step (List Node)
  | 0 => refuse
  | fuel + 1 => do
    if ← skipIf .flowSequenceEnd then return []
    if !first then require .flowEntry
    if ← skipIf .key then
      let entry ← flowPair .flowSequenceEnd fuel
      return .mapping .mapping [entry] :: (← flowItems false fuel)
    else if ← skipIf .flowSequenceEnd then return []
    else
      let item ← node false false fuel
      return item :: (← flowItems false fuel)

/-- The entries of a mapping between braces up to its end. -/
def flowEntries (first : Bool) : Nat → Step (List (Node × Node))
  | 0 => refuse
  | fuel + 1 => do
    if ← skipIf .flowMappingEnd then return []
    if !first then require .flowEntry
    if ← skipIf .key then
      let entry ← flowPair .flowMappingEnd fuel
      return entry :: (← flowEntries false fuel)
    else if ← skipIf .flowMappingEnd then return []
    else
      let key ← node false false fuel
      return (key, empty) :: (← flowEntries false fuel)

end

/-! ## Documents -/

/-- The directives in front of a document: whether the version was given, and the abbreviations of
tags. -/
def directives : Nat → Bool → List (String × String) → Step (List (String × String))
  | 0, _, _ => refuse
  | fuel + 1, versioned, handles => do
    match ← next with
    | .directive content =>
      pass
      match content with
      | .version major _ =>
        if versioned || major ≠ 1 then throw .malformed else directives fuel true handles
      | .tag handle start =>
        if (handles.lookup handle).isSome then throw .malformed
        else directives fuel versioned ((handle, start) :: handles)
      | .unknown => directives fuel versioned handles
    | _ => return handles

/-- Marks of the end of a document. -/
def documentEnds : Nat → Step Unit
  | 0 => return
  | fuel + 1 => do
    if ← skipIf .documentEnd then documentEnds fuel else return

/-- The node of the only document, if there is one. -/
def document (fuel : Nat) : Step (Option Node) := do
  match ← next with
  | .streamEnd => return none
  | .directive _ | .documentStart =>
    let handles ← directives fuel false []
    modify fun s => { s with handles := handles ++ commonHandles }
    require .documentStart
    let root ←
      match ← next with
      | .directive _ | .documentStart | .documentEnd | .streamEnd => pure empty
      | _ => node true false fuel
    documentEnds fuel
    require .streamEnd
    return some root
  | _ =>
    let root ← node true false fuel
    documentEnds fuel
    require .streamEnd
    return some root

/-- The node of the document that the tokens hold, or none if they hold no document. -/
def ofTokens (tokens : List Token) : Except Error (Option Node) := do
  let (root, _) ← (document (3 * tokens.length + 3)).run ⟨tokens, [], commonHandles⟩
  return root

end Node

end LogAlert.Yaml
