import ModuleSurface.Yaml.Node
import ModuleSurface.Yaml.Number

/-! # Reading YAML as a document

Every node becomes one value, so sharing and cycles of a text are those of its document. What a
sequence or a mapping holds is read after everything that was met before it, level by level, and the
first node in this order that has no value tells why a text is not read. A merge key puts the pairs
of other mappings in front of the pairs of its own mapping; of equal keys the first place and the
last value count. -/

namespace ModuleSurface.Yaml

/-- **What has been read so far**: the table of the nodes, in which merging changes mappings, the
store, the values of the nodes that were met, and the nodes whose contents are still to be read. -/
structure Progress where
  nodes : Nodes
  store : Store := {}
  values : Array (Option Value)
  waiting : List Nat := []

/-- A step of reading. -/
abbrev Reading := StateT Progress (Except ReadError)

/-! ## Scalars -/

/-- The text of a node: its own, or in a mapping that of the value under the value key. -/
def scalarText (nodes : Nodes) : Nat → Nat → Except ReadError String
  | 0, _ => .error .endlessScalar
  | fuel + 1, place =>
    match (nodes.node place).content with
    | .scalar text => .ok text
    | .sequence _ => .error .malformed
    | .mapping pairs =>
      match pairs.find? fun pair => (nodes.node pair.1).tag == .value with
      | some pair => scalarText nodes fuel pair.2
      | none => .error .malformed

/-- The truth value of a word, in any case. -/
def readBool (text : String) : Except ReadError Bool :=
  match boolWords.find? fun word => word.1.toList == text.toList.map Char.toLower with
  | some word => .ok word.2
  | none => .error .unknownTruthValue

/-- The bytes of a text in base 64, which has to be ASCII. -/
def readBytes (text : String) : Except ReadError Bytes :=
  if text.toList.all (·.toNat < 0x80) then orMalformed (Bytes.ofBase64? text.toList)
  else .error .malformed

/-- The moment of a text. -/
def readMoment (text : String) : Except ReadError Moment :=
  match Timestamp.ofText? (dropFinalBreak text).toList with
  | none => .error .unreadableMoment
  | some stamp =>
    match stamp.moment? with
    | some moment => .ok moment
    | none => .error .noMoment

/-- **The scalar of a node** by its tag; none of the tags of scalars is none. -/
def readScalar (nodes : Nodes) (place : Nat) : Except ReadError (Option Scalar) := do
  let text := scalarText nodes (nodes.size + 1) place
  match (nodes.node place).tag with
  | .null =>
    let _ ← text
    return some .null
  | .bool => return some (.bool (← readBool (← text)))
  | .int => return some (.int (← readInt (← text)))
  | .float => return some (.float (← readDouble (← text)))
  | .text => return some (.text (← text))
  | .bytes => return some (.bytes (← readBytes (← text)))
  | .moment =>
    let text ← text
    -- moments are not taken from the value key of a mapping
    if nodes.isMapping place then throw .momentOfMapping
    else return some (.moment (← readMoment text) place)
  | _ => return none

/-! ## Merging -/

/-- The first merge pair of a mapping: what is to be merged, and the pairs without it. -/
def takeMerge (nodes : Nodes) : List (Nat × Nat) → Option (Nat × List (Nat × Nat))
  | [] => none
  | pair :: rest =>
    if (nodes.node pair.1).tag = .merge then some (pair.2, rest)
    else (takeMerge nodes rest).map fun (source, others) => (source, pair :: others)

/-- The mappings that the value of a merge key names, the last one first: earlier ones win. -/
def mergeSources (nodes : Nodes) (source : Nat) : Except ReadError (List Nat) :=
  match (nodes.node source).content with
  | .mapping _ => .ok [source]
  | .sequence items => if items.all nodes.isMapping then .ok items else .error .malformed
  | .scalar _ => .error .malformed

/-- The table with the value keys of a mapping as texts. -/
def dropValueTags (nodes : Nodes) (place : Nat) : Nodes :=
  (nodes.pairs place).foldl (fun nodes pair =>
    nodes.modify pair.1 fun node => if node.tag = .value then { node with tag := .text } else node)
    nodes

namespace Reading

/-- The table. -/
def nodes : Reading Nodes := fun progress => .ok (progress.nodes, progress)

/-- Changes the table. -/
def onNodes (change : Nodes → Nodes) : Reading Unit := fun progress =>
  .ok ((), { progress with nodes := change progress.nodes })

/-- **The pairs that are merged into a mapping**, which is left without merge keys. Each step takes
one of them out of the table, and so mappings that are merged into each other come to an end. -/
def mergedPairs : Nat → Nat → Reading (List (Nat × Nat))
  | 0, _ => return []
  | fuel + 1, place => do
    match takeMerge (← nodes) ((← nodes).pairs place) with
    | none => return []
    | some (source, rest) =>
      -- the merge pair is taken out first: a mapping that is merged into itself comes to an end
      onNodes (·.setContent place (.mapping rest))
      let found ← (← mergeSources (← nodes) source).mapM fun source => do
        let front ← mergedPairs fuel source
        onNodes fun nodes => nodes.setContent source (.mapping (front ++ nodes.pairs source))
        onNodes (dropValueTags · source)
        return (← nodes).pairs source
      -- of equal keys the last pair counts, so the first source goes last
      return found.reverse.flatten ++ (← mergedPairs fuel place)

/-- How many pairs the mappings of the table hold. -/
def pairCount (nodes : Nodes) : Nat :=
  nodes.foldl (fun count node =>
    match node.content with
    | .mapping pairs => count + pairs.length
    | _ => count) 0

/-- **Merging** what the merge keys of a mapping name into it. -/
def merge (place : Nat) : Reading Unit := do
  if (takeMerge (← nodes) ((← nodes).pairs place)).isSome then
    let front ← mergedPairs (pairCount (← nodes) + 1) place
    onNodes fun nodes => nodes.setContent place (.mapping (front ++ nodes.pairs place))
  onNodes (dropValueTags · place)

/-! ## Values -/

/-- A new list of the store. -/
def newList (items : List Value) : Reading Nat := fun progress =>
  .ok (progress.store.lists.size,
    { progress with store.lists := progress.store.lists.push items })

/-- A new map of the store. -/
def newMap : Reading Nat := fun progress =>
  .ok (progress.store.maps.size, { progress with store.maps := progress.store.maps.push [] })

/-- Gives a node its value; what a node that waits holds is read later. -/
def remember (place : Nat) (waits : Bool) (value : Value) : Reading Value := fun progress =>
  .ok (value,
    { progress with
      values := progress.values.setIfInBounds place (some value)
      waiting := if waits then progress.waiting ++ [place] else progress.waiting })

/-- **The value of a node.** That of a sequence or a mapping is empty until its contents are read.
-/
def value (place : Nat) : Reading Value := do
  match (← get).values.getD place none with
  | some value => return value
  | none =>
    match ← readScalar (← nodes) place with
    | some s => remember place false (.scalar s)
    | none =>
      -- containers are filled later, so one that contains itself has its value already
      match ((← nodes).node place).tag with
      | .sequence | .orderedMap | .pairs => remember place true (.list (← newList []))
      | .mapping => remember place true (.map (← newMap))
      | .set => remember place true (.set (← newMap))
      | _ => throw .malformed

/-- The key of a node; only scalars are keys. -/
def key (place : Nat) : Reading Scalar := do
  match ← value place with
  | .scalar s => return s
  | _ => throw .malformed

/-- The entries of a mapping. -/
def entries (place : Nat) : Reading Entries := do
  if (← nodes).isMapping place then
    merge place
    let pairs ← ((← nodes).pairs place).mapM fun pair => do
      return (← key pair.1, ← value pair.2)
    return Entries.ofPairs pairs
  else throw .malformed

/-- The items of a sequence. -/
def items (place : Nat) : Reading (List Value) := do
  match ((← nodes).node place).content with
  | .sequence items => items.mapM value
  | _ => throw .malformed

/-- The items of a sequence of mappings with one pair each, as pairs. -/
def pairItems (place : Nat) : Reading (List Value) := do
  match ((← nodes).node place).content with
  | .sequence items =>
    items.mapM fun item => do
      match ((← nodes).node item).content with
      | .mapping [pair] =>
        let first ← value pair.1
        let second ← value pair.2
        return .pair (← newList [first, second])
      | _ => throw .malformed
  | _ => throw .malformed

/-- Fills a list of the store. -/
def fillList (ref : Nat) (items : List Value) : Reading Unit := fun progress =>
  .ok ((), { progress with store.lists := progress.store.lists.setIfInBounds ref items })

/-- Fills a map of the store. -/
def fillMap (ref : Nat) (entries : Entries) : Reading Unit := fun progress =>
  .ok ((), { progress with store.maps := progress.store.maps.setIfInBounds ref entries })

/-- **Reading the contents** of a sequence or a mapping. -/
def contents (place : Nat) : Reading Unit := do
  let tag := ((← nodes).node place).tag
  match ← value place with
  | .list ref | .pair ref =>
    fillList ref (← if tag = .sequence then items place else pairItems place)
  | .map ref => fillMap ref (← entries place)
  | .set ref => fillMap ref ((← entries place).map fun entry => (entry.1, .null))
  | .scalar _ => return ()

/-- The node that waits longest. -/
def nextWaiting : Reading (Option Nat) := fun progress =>
  .ok (progress.waiting.head?, { progress with waiting := progress.waiting.tail })

/-- Reads the contents of all nodes that wait, and of those that come to wait meanwhile. Every node
waits once. -/
def allContents : Nat → Reading Unit
  | 0 => return ()
  | fuel + 1 => do
    match ← nextWaiting with
    | none => return ()
    | some place =>
      contents place
      allContents fuel

/-- The value of a root node with all its contents. -/
def all (root : Nat) : Reading Value := do
  let value ← value root
  allContents (← nodes).size
  return value

end Reading

/-- **Reading a YAML text** as a document. -/
def read (text : String) : Except ReadError Document := do
  let (root, nodes) ← nodes text
  let start : Progress := { nodes, values := Array.replicate nodes.size none }
  let (value, progress) ← (Reading.all root).run start
  return ⟨progress.store, value⟩

end ModuleSurface.Yaml
