import ModuleSurface.Graph
import ModuleSurface.Schema.Parts

/-! # Writing an export graph as a document

Every reachable element becomes one map, and all elements that refer to it refer to that map. The
maps of the elements get their places first, in the order in which the elements are discovered, so
that cycles need no care; the lists and maps inside an element are new ones for each element. -/

namespace ModuleSurface

/-- A step of writing: it adds to a store. -/
abbrev Writing := StateM Store

namespace Writing

/-- Adds a map. -/
def map (entries : Entries) : Writing Value := fun store =>
  ((store.addMap entries).2, (store.addMap entries).1)

/-- Adds a list. -/
def list (items : List Value) : Writing Value := fun store =>
  ((store.addList items).2, (store.addList items).1)

/-- A step that is given as a function on stores. -/
def part (write : Store → Store × Value) : Writing Value := fun store =>
  ((write store).2, (write store).1)

/-- Fills the place of a map. -/
def fill (ref : Nat) (entries : Entries) : Writing Unit := fun store =>
  ((), { store with maps := store.maps.setIfInBounds ref entries })

/-- Adds places for maps. -/
def reserve (count : Nat) : Writing Unit := fun store =>
  ((), { store with maps := store.maps ++ Array.replicate count [] })

end Writing

/-- Where the map of each element stands, as the value that refers to it. -/
abbrev Placement := Handle → Value

namespace Placement

/-- A member map as a map from its names to the maps of its elements. -/
def writeMembers (place : Placement) (members : Members) : Writing Value :=
  Writing.map (members.map fun entry => (entry.1, place entry.2))

/-- A field that is written only when it is there. -/
def writeOptional (name : String) : Option (Writing Value) → Writing Entries
  | none => return []
  | some write => do return [(.text name, ← write)]

/-- The fields that the body of an element adds. -/
def writeBody (place : Placement) : Body → Writing Entries
  | .global type constant => do
    let type ← Writing.part fun store => store.writeType type
    let constant ← writeOptional "constant"
      (constant.map fun constant => Writing.part fun store => store.writeConstant constant)
    return (.text "type", type) :: constant
  | .enumValue value => return [(.text "value", .scalar value)]
  | .function signature => do
    return [(.text "signature", ← Writing.part fun store => store.writeSignature signature)]
  | .functionPrototype instances | .classPrototype instances => do
    return [(.text "instances", ← Writing.list (instances.map place))]
  | .classType links | .interfaceType links => do
    -- a base is a reference alone, so it adds nothing to the store
    let base := links.base.toList.map fun h => (Scalar.text "base", place h)
    let staticMembers ← writeOptional "static_members" (links.staticMembers.map place.writeMembers)
    let instanceMembers ←
      writeOptional "instance_members" (links.instanceMembers.map place.writeMembers)
    return base ++ staticMembers ++ instanceMembers
  | .enumeration | .nameSpace => return []

/-- **The fields of an element**: kind, name, flags if there are any, what the body adds, and the
members if there is a member map. -/
def writeElement (place : Placement) (element : Element) : Writing Entries := do
  let flags ← writeOptional "flags" (if element.flags.names = [] then none
    else some (Writing.part fun store => store.writeFlags element.flags))
  let body ← place.writeBody element.body
  let members ← writeOptional "members" (element.members.map place.writeMembers)
  return [(.text "kind", .text element.kind.name), (.text "name", element.name)]
    ++ flags ++ body ++ members

end Placement

namespace Graph

/-- Writes the maps of a list of elements into their places, which follow each other from `ref`
on. -/
def writeElements (graph : Graph) (place : Placement) : Nat → List Handle → Writing Unit
  | _, [] => return ()
  | ref, h :: rest => do
    let entries ← place.writeElement (graph.element h)
    Writing.fill ref entries
    graph.writeElements place (ref + 1) rest

/-- **The document of a graph whose elements are written in an order.** Their maps stand behind the
store of the graph, in this order. -/
def writeInOrder (graph : Graph) (order : List Handle) : Document :=
  let first := graph.store.maps.size
  let place : Placement := fun h => .map (first + order.idxOf h)
  let write : Writing Value := do
    -- all places are fixed before the first map is written
    Writing.reserve order.length
    graph.writeElements place first order
    let exports ← place.writeMembers graph.exports
    Writing.map [(.text "is_64bit", .bool graph.is64Bit), (.text "exports", exports)]
  let (root, store) := write.run graph.store
  ⟨store, root⟩

/-- **The document of a graph.** The elements that can be reached are written in the order of
discovery. -/
def toDocument (graph : Graph) : Document := graph.writeInOrder graph.discover

end Graph

end ModuleSurface
