import ModuleSurface.Yaml.Plain
import ModuleSurface.Yaml.Token

/-! # Nodes of a YAML text

The tokens of a text make one node. All nodes are kept in a table and referred to by their places,
so an alias is the same reference as its anchor; an anchor is known before the contents of its
node are read, and the node may refer to itself. -/

namespace ModuleSurface.Yaml

/-- **What a node holds**: a text, or the places of other nodes. -/
inductive Content
  | scalar (text : String)
  | sequence (items : List Nat)
  | mapping (pairs : List (Nat × Nat))
deriving DecidableEq, Repr, Inhabited

/-- **A node**: its tag and what it holds. -/
structure Node where
  tag : Tag
  content : Content
deriving DecidableEq, Repr, Inhabited

/-- **The table of the nodes** of a text. -/
abbrev Nodes := Array Node

namespace Nodes

/-- The node at a place; outside the table there is a node without a value. -/
def node (nodes : Nodes) (place : Nat) : Node := nodes.getD place ⟨.other, .sequence []⟩

/-- The table with other contents in a node. -/
def setContent (nodes : Nodes) (place : Nat) (content : Content) : Nodes :=
  nodes.modify place fun node => { node with content }

/-- The pairs of a mapping, and none of other nodes. -/
def pairs (nodes : Nodes) (place : Nat) : List (Nat × Nat) :=
  match (nodes.node place).content with
  | .mapping pairs => pairs
  | _ => []

/-- Whether a node is a mapping. -/
def isMapping (nodes : Nodes) (place : Nat) : Bool :=
  match (nodes.node place).content with
  | .mapping _ => true
  | _ => false

end Nodes

/-- What is known while nodes are made: the tokens to come, the table, and the anchors and the
handles of tags that were met. -/
structure Composition where
  tokens : Tokens
  nodes : Nodes := #[]
  anchors : List (String × Nat) := []
  handles : List (String × String) := []

/-- A step of making nodes; it fails where the tokens are not those of a text, and where they end in
a fault. -/
abbrev Composing := StateT Composition (Except ReadError)

namespace Composing

/-- Stops at tokens that are not those of a text. -/
def malformed {α : Type} : Composing α := throw .malformed

/-- The next token. -/
def peek : Composing (Option Token) := fun state =>
  match state.tokens.tokens, state.tokens.fault with
  -- what is at fault is met only when the tokens before it are used up
  | [], some fault => .error fault
  | tokens, _ => .ok (tokens.head?, state)

/-- Goes on behind the next token. -/
def advance : Composing Unit := fun state =>
  .ok ((), { state with tokens.tokens := state.tokens.tokens.tail })

/-- Takes the next token if it is a given one, and says whether it was. -/
def accept (token : Token) : Composing Bool := do
  if (← peek) = some token then
    advance
    return true
  else return false

/-- Takes the next token, which has to be a given one. -/
def expect (token : Token) : Composing Unit := do
  if ← accept token then return () else malformed

/-- Whether the next token is one of some. -/
def atAny (tokens : List Token) : Composing Bool := do
  return (← peek).any fun token => tokens.contains token

/-- A new node. -/
def newNode (tag : Tag) (content : Content) : Composing Nat := fun state =>
  .ok (state.nodes.size, { state with nodes := state.nodes.push ⟨tag, content⟩ })

/-- Fills a node that was made before its contents. -/
def fill (place : Nat) (content : Content) : Composing Unit := fun state =>
  .ok ((), { state with nodes := state.nodes.setContent place content })

/-- Gives a node its anchor. No two nodes have the same one. -/
def anchor (name : Option String) (place : Nat) : Composing Unit := fun state =>
  match name with
  | none => .ok ((), state)
  | some name =>
    if (state.anchors.lookup name).isSome then .error .malformed
    else .ok ((), { state with anchors := (name, place) :: state.anchors })

/-- The node of an anchor. -/
def aliased (name : String) : Composing Nat := fun state =>
  (orMalformed (state.anchors.lookup name)).map (·, state)

/-- The full name of a tag. -/
def fullTag (handle : Option String) (suffix : String) : Composing String := fun state =>
  match handle with
  | none => .ok (suffix, state)
  | some handle =>
    (orMalformed (state.handles.lookup handle)).map fun start => (start ++ suffix, state)

end Composing

/-- What the names of the standard tags start with. -/
def standardTags : String := "tag:yaml.org,2002:"

/-- The names of the standard tags. -/
def tagNames : List (String × Tag) :=
  [("null", .null), ("bool", .bool), ("int", .int), ("float", .float), ("timestamp", .moment),
    ("binary", .bytes), ("str", .text), ("seq", .sequence), ("omap", .orderedMap),
    ("pairs", .pairs), ("map", .mapping), ("set", .set), ("merge", .merge), ("value", .value)]

/-- The tag of a full name. -/
def Tag.ofName (name : String) : Tag :=
  if name.startsWith standardTags then
    (tagNames.lookup (name.drop standardTags.length).toString).getD .other
  else .other

/-- The tag of a node: the given one, or its own where none is given or the given one is the
exclamation mark alone. -/
def givenTag (given : Option String) (own : Tag) : Tag :=
  match given with
  | none | some "!" => own
  | some name => Tag.ofName name

/-- The tag of a scalar's looks, which count where it is plain or where the exclamation mark asks
for them. -/
def ownTag (given : Option String) (plain : Bool) (text : String) : Tag :=
  if plain || given == some "!" then plainTag (dropFinalBreak text) else .text

namespace Composing

/-- The anchor and the tag in front of a node, in either order. -/
def properties : Composing (Option String × Option String) := do
  let anchorFirst ← peek
  match anchorFirst with
  | some (.anchor name) =>
    advance
    match ← peek with
    | some (.tag handle suffix) =>
      advance
      return (some name, some (← fullTag handle suffix))
    | _ => return (some name, none)
  | some (.tag handle suffix) =>
    advance
    match ← peek with
    | some (.anchor name) =>
      advance
      return (some name, some (← fullTag handle suffix))
    | _ => return (none, some (← fullTag handle suffix))
  | _ => return (none, none)

/-- A scalar of given looks. -/
def scalar (name tag : Option String) (plain : Bool) (text : String) : Composing Nat := do
  let place ← newNode (givenTag tag (ownTag tag plain text)) (.scalar text)
  anchor name place
  return place

/-- A sequence whose items are made by a step. -/
def sequence (name tag : Option String) (items : Composing (List Nat)) : Composing Nat := do
  let place ← newNode (givenTag tag .sequence) (.sequence [])
  -- the anchor is known before the items, so an item may be an alias of the list
  anchor name place
  fill place (.sequence (← items))
  return place

/-- A mapping whose pairs are made by a step. -/
def mapping (name tag : Option String) (pairs : Composing (List (Nat × Nat))) :
    Composing Nat := do
  let place ← newNode (givenTag tag .mapping) (.mapping [])
  anchor name place
  fill place (.mapping (← pairs))
  return place

/-- The empty scalar that stands where a node is missing. -/
def empty : Composing Nat := newNode .null (.scalar "")

/-- The node that a step makes, or the empty one in front of some tokens. -/
def orEmptyAt (tokens : List Token) (node : Composing Nat) : Composing Nat := do
  if ← atAny tokens then empty else node

/-- A node of which only an anchor or a tag stands there. -/
def bare (name tag : Option String) : Composing Nat :=
  if name.isNone && tag.isNone then malformed
  else scalar name tag (tag.isNone || tag == some "!") ""

mutual

/-- **The next node.** `inBlock` says whether it may be a block, and `asValue` whether a list may
stand there without being indented. Every nested step takes a token or is the last before one is
taken. -/
def node : Nat → (inBlock asValue : Bool) → Composing Nat
  | 0, _, _ => malformed
  | fuel + 1, inBlock, asValue => do
    match ← peek with
    -- an alias has neither anchor nor tag of its own
    | some (.alias name) =>
      advance
      aliased name
    | _ =>
      let (name, tag) ← properties
      match ← peek with
      | some .entry =>
        if asValue then sequence name tag (looseItems fuel)
        else bare name tag
      | some (.scalar text plain) =>
        advance
        scalar name tag plain text
      | some .flowSequenceStart =>
        advance
        sequence name tag (flowItems fuel true)
      | some .flowMappingStart =>
        advance
        mapping name tag (flowPairs fuel true)
      | some .blockSequenceStart =>
        if inBlock then
          advance
          sequence name tag (blockItems fuel)
        else bare name tag
      | some .blockMappingStart =>
        if inBlock then
          advance
          mapping name tag (blockPairs fuel)
        else bare name tag
      | _ => bare name tag

/-- The items of a list that is indented. -/
def blockItems : Nat → Composing (List Nat)
  | 0 => malformed
  | fuel + 1 => do
    if ← accept .entry then
      let item ← orEmptyAt [.entry, .blockEnd] (node fuel true false)
      return item :: (← blockItems fuel)
    else
      expect .blockEnd
      return []

/-- The items of a list that stands under its key without being indented. -/
def looseItems : Nat → Composing (List Nat)
  | 0 => malformed
  | fuel + 1 => do
    if ← accept .entry then
      let item ← orEmptyAt [.entry, .key, .value, .blockEnd] (node fuel true false)
      return item :: (← looseItems fuel)
    else return []

/-- The pairs of a mapping that is indented. -/
def blockPairs : Nat → Composing (List (Nat × Nat))
  | 0 => malformed
  | fuel + 1 => do
    if ← accept .key then
      let key ← orEmptyAt [.key, .value, .blockEnd] (node fuel true true)
      let value ←
        if ← accept .value then orEmptyAt [.key, .value, .blockEnd] (node fuel true true)
        else empty
      return (key, value) :: (← blockPairs fuel)
    else
      expect .blockEnd
      return []

/-- The items of a list in brackets, up to and with the closing one. -/
def flowItems : Nat → (first : Bool) → Composing (List Nat)
  | 0, _ => malformed
  | fuel + 1, first => do
    if ← accept .flowSequenceEnd then return []
    else
      if !first then expect .flowEntry
      if ← accept .flowSequenceEnd then return []
      -- a lone pair in brackets is a mapping of its own
      else if ← accept .key then
        let item ← mapping none none do
          let key ← orEmptyAt [.value, .flowEntry, .flowSequenceEnd] (node fuel false false)
          let value ←
            if ← accept .value then orEmptyAt [.flowEntry, .flowSequenceEnd] (node fuel false false)
            else empty
          return [(key, value)]
        return item :: (← flowItems fuel false)
      else
        let item ← node fuel false false
        return item :: (← flowItems fuel false)

/-- The pairs of a mapping in braces, up to and with the closing one. -/
def flowPairs : Nat → (first : Bool) → Composing (List (Nat × Nat))
  | 0, _ => malformed
  | fuel + 1, first => do
    if ← accept .flowMappingEnd then return []
    else
      if !first then expect .flowEntry
      if ← accept .flowMappingEnd then return []
      else if ← accept .key then
        let key ← orEmptyAt [.value, .flowEntry, .flowMappingEnd] (node fuel false false)
        let value ←
          if ← accept .value then orEmptyAt [.flowEntry, .flowMappingEnd] (node fuel false false)
          else empty
        return (key, value) :: (← flowPairs fuel false)
      else
        let key ← node fuel false false
        let value ← empty
        return (key, value) :: (← flowPairs fuel false)

end

/-- The directives in front of a document: the handles of tags that they set. At most one may give a
version, which has to be the first major one, and each handle is set at most once. -/
def directives : Nat → (version : Bool) → List (String × String) →
    Composing (List (String × String))
  | 0, _, _ => malformed
  | fuel + 1, version, handles => do
    match ← peek with
    | some (.version major) =>
      advance
      if version || major != 1 then malformed else directives fuel true handles
    | some (.tagDirective handle start) =>
      advance
      if (handles.lookup handle).isSome then malformed
      else directives fuel version ((handle, start) :: handles)
    | some .unknownDirective =>
      advance
      directives fuel version handles
    | _ => return handles

/-- The handles of tags that need no directive. -/
def standardHandles : List (String × String) := [("!", "!"), ("!!", standardTags)]

/-- Whether a token belongs to the frame of a document and not to its contents. -/
def isFrame : Option Token → Bool
  | none | some (.version _) | some (.tagDirective _ _) | some .unknownDirective
  | some .documentStart | some .documentEnd => true
  | _ => false

/-- Goes on behind the markers of ends of documents. -/
def skipEnds : Nat → Composing Unit
  | 0 => return ()
  | fuel + 1 => do if ← accept .documentEnd then skipEnds fuel

/-- **The only document** of a text, with or without a frame. A text without any token is the empty
document. -/
def document (fuel : Nat) : Composing Nat := do
  let first ← peek
  if first.isNone then empty
  else
    let root ←
      if isFrame first && first ≠ some .documentEnd then do
        let handles ← directives fuel false []
        modify fun state => { state with handles := handles ++ standardHandles }
        expect .documentStart
        if isFrame (← peek) then empty else node fuel true false
      else do
        modify fun state => { state with handles := standardHandles }
        node fuel true false
    skipEnds fuel
    if (← peek).isNone then return root else malformed

end Composing

/-- **The root node of a text** and the table of its nodes. -/
def nodes (text : String) : Except ReadError (Nat × Nodes) := do
  let tokens := Tokens.ofText text
  let (root, state) ← (Composing.document (3 * tokens.tokens.length + 3)).run { tokens }
  return (root, state.nodes)

end ModuleSurface.Yaml
