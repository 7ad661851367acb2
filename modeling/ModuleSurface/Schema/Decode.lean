import ModuleSurface.Graph
import ModuleSurface.Schema.Parts

/-! # Reading a document as an export graph

Every map of the document that is reached as an element becomes one element, however often it is
reached: the reader remembers which handle a map has got, and it does so before it goes on to
what the map refers to, so a cycle of maps becomes a cycle of elements. A map without a name takes
the name under which it is first reached. -/

namespace ModuleSurface

/-- **What has been read so far**: the elements, and which map became which of them. -/
structure Progress where
  elements : Array Element := #[]
  known : List (Nat × Handle) := []

/-- A step of reading: it goes on from what has been read, or stops. -/
abbrev Reading := StateT Progress (Except DecodeError)

namespace Reading

/-- A new element for a map of the document. -/
def allocate (ref : Nat) (element : Element) : Reading Handle := fun progress =>
  .ok (progress.elements.size,
    ⟨progress.elements.push element, (ref, progress.elements.size) :: progress.known⟩)

/-- The element that a map has become, if it has. -/
def known? (ref : Nat) : Reading (Option Handle) := fun progress =>
  .ok (progress.known.lookup ref, progress)

/-- An element that has been allocated. -/
def element (h : Handle) : Reading Element := fun progress =>
  .ok (progress.elements.getD h default, progress)

/-- Puts an element in the place of an allocated one. -/
def replace (h : Handle) (element : Element) : Reading Unit := fun progress =>
  .ok ((), { progress with elements := progress.elements.setIfInBounds h element })

end Reading

/-- How an element is read, given the name it inherits where it has none of its own. -/
abbrev ElementReader := Value → Option Value → Reading Handle

namespace Store

/-- The body of an element before anything that it refers to is read. -/
def readBody (store : Store) (kind : ElementKind) (name : Value) (entries : Entries) :
    Except DecodeError Body :=
  match kind with
  | .global => do
    let constant ← store.readConstant name (entries.field "constant")
    match entries.field? "type" with
    | none => refuse (.typelessGlobal name)
    | some type => return .global (← store.readType type) constant
  | .enumeration => .ok .enumeration
  | .enumValue => do return .enumValue (← readEnumValue name (entries.field? "value"))
  | .function => do return .function (← store.readSignature (entries.field "signature"))
  | .functionPrototype => .ok (.functionPrototype [])
  | .classPrototype => .ok (.classPrototype [])
  | .classType => .ok (.classType {})
  | .interfaceType => .ok (.interfaceType {})
  | .nameSpace => .ok .nameSpace

/-- **The head of an element**: its kind, its name, its flags and what its body holds itself, in
this order of faults. Members and links are not read yet. -/
def readHead (store : Store) (entries : Entries) (inherited : Option Value) :
    Except DecodeError Element := do
  let given := entries.field "kind"
  match given.text?.bind ElementKind.ofName? with
  | none => refuse (.unknownElementKind given)
  | some kind =>
    let name := (entries.field? "name").getD (Value.ofOption inherited)
    if !store.truthy name then refuse (.nameless kind)
    else
      -- flags are read before the body: the first fault is the one that is told
      let flags ← store.readFlags (entries.field "flags")
      let body ← store.readBody kind name entries
      return { name, flags, body }

/-- The members of a map whose values are read as elements; each inherits its key as its name. -/
def readEntries (reader : ElementReader) : Entries → Reading Members
  | [] => return []
  | (key, v) :: rest => do
    let h ← reader v (some (.scalar key))
    let members ← readEntries reader rest
    return (key, h) :: members

/-- **Reading a member map**: nothing, or a map of elements. -/
def readMembers (store : Store) (reader : ElementReader) : Value → Reading (Option Members)
  | .scalar .null => return none
  | .map ref => do return some (← readEntries reader (store.entries ref))
  | v => throw (.format (.memberMapNotMap v.typeName))

/-- An element that has to be of a sort. -/
def readInstance (reader : ElementReader) (sort : InstanceSort) (inherited : Option Value)
    (v : Value) : Reading Handle := do
  let h ← reader v inherited
  let element ← Reading.element h
  -- an instance that is still being read has its kind already
  if sort.admits element.kind then return h
  else throw (.format (.wrongInstance sort element.kind element.name))

/-- The instances of a list, in order. -/
def readInstanceList (reader : ElementReader) (sort : InstanceSort) (inherited : Option Value) :
    List Value → Reading (List Handle)
  | [] => return []
  | v :: rest => do
    let h ← readInstance reader sort inherited v
    let instances ← readInstanceList reader sort inherited rest
    return h :: instances

/-- **Reading the instances** of a prototype; each inherits the name of the prototype. Every value
that counts as false is the empty list. -/
def readInstances (store : Store) (reader : ElementReader) (sort : InstanceSort) (name : Value)
    (v : Value) : Reading (List Handle) :=
  if !store.truthy v then return []
  else
    match v with
    | .list ref => readInstanceList reader sort (some name) (store.items ref)
    | v => throw (.format (.instancesNotList v.typeName))

/-- Reading what a class refers to: its base, which inherits no name, and its member maps. -/
def readClassLinks (store : Store) (reader : ElementReader) (entries : Entries) :
    Reading ClassLinks := do
  let base ← match (entries.field "base").nonNull? with
    | none => pure none
    | some v => do pure (some (← readInstance reader .classLike none v))
  let staticMembers ← store.readMembers reader (entries.field "static_members")
  let instanceMembers ← store.readMembers reader (entries.field "instance_members")
  return { base, staticMembers, instanceMembers }

/-- **Reading the links** of a body. -/
def readLinks (store : Store) (reader : ElementReader) (name : Value) (entries : Entries)
    (body : Body) : Reading Body :=
  match body with
  | .functionPrototype _ => do
    return .functionPrototype
      (← store.readInstances reader .function name (entries.field "instances"))
  | .classPrototype _ => do
    return .classPrototype
      (← store.readInstances reader .classLike name (entries.field "instances"))
  | .classType _ => do return .classType (← store.readClassLinks reader entries)
  | .interfaceType _ => do return .interfaceType (← store.readClassLinks reader entries)
  | body => return body

/-- **Reading an element.** A map that is known already is its element. A new one is allocated by
its head, then its members are read, then its links. `fuel` bounds how deep elements nest. -/
def readElement (store : Store) : Nat → ElementReader
  | 0, _, _ => throw .nestedTooDeep
  | fuel + 1, v, inherited =>
    match v with
    | .map ref => do
      match ← Reading.known? ref with
      | some h => return h
      | none =>
        let entries := store.entries ref
        let head ← store.readHead entries inherited
        -- known from here on: what lies below the map may refer back to it
        let h ← Reading.allocate ref head
        let members ← store.readMembers (store.readElement fuel) (entries.field "members")
        Reading.replace h { head with members }
        -- the members are in place before the links are read
        let body ← store.readLinks (store.readElement fuel) head.name entries head.body
        Reading.replace h { head with members, body }
        return h
    | v => throw (.format (.elementNotMap v.typeName))

end Store

/-- The exports and the addressing width of a root map. -/
def Document.readRoot (document : Document) (ref : Nat) : Reading (Members × Bool) := do
  let store := document.store
  let entries := store.entries ref
  let exports := entries.field "exports"
  let members ←
    -- every value that counts as false exports nothing, whatever its sort
    if !store.truthy exports then pure []
    else
      match exports with
      | .map ref => Store.readEntries (store.readElement (store.maps.size + 1)) (store.entries ref)
      | v => throw (.format (.exportsNotMap v.typeName))
  return (members, store.truthy ((entries.field? "is_64bit").getD (.bool false)))

/-- **Reading a document as an export graph.** Elements nest at most as deep as the document has
maps, since a map is known from its first visit on. -/
def Graph.ofDocument (document : Document) : Except DecodeError Graph :=
  match document.root with
  | .map ref => do
    let ((exports, is64Bit), progress) ← (document.readRoot ref).run {}
    return { store := document.store, elements := progress.elements, exports, is64Bit }
  | _ => refuse .rootNotMap

end ModuleSurface
