import ModuleSurface.Element

/-! # Export graphs

An export graph is the public surface of one compiled module: its elements, the names under which
some of them are exported, and the addressing width. -/

namespace ModuleSurface

/-- **An export graph.** The store holds what names refer to that are lists or maps; names that are
texts need none of it. -/
structure Graph where
  store : Store := {}
  elements : Array Element := #[]
  exports : Members := []
  is64Bit : Bool := false

namespace Graph

/-- The element of a handle. A handle outside the graph stands for an empty namespace. -/
def element (graph : Graph) (h : Handle) : Element := graph.elements.getD h default

/-- How many elements the graph holds. -/
def size (graph : Graph) : Nat := graph.elements.size

/-- The element that is exported under a name. -/
def exported? (graph : Graph) (name : String) : Option Handle :=
  (graph.exports.find? fun entry => entry.1 == .text name).map (·.2)

/-- The graph with an element exported under a name. A name that is exported already keeps its
place and gets the new element. -/
def add (graph : Graph) (h : Handle) (name : Scalar) : Graph :=
  { graph with exports := Entries.put name h graph.exports }

/-- An export is added by `Entries.put`, so a name that is exported already keeps its place. -/
@[simp] theorem exports_add (graph : Graph) (h : Handle) (name : Scalar) :
    (graph.add h name).exports = Entries.put name h graph.exports := rfl

/-- The graph under an addressing width. -/
def withWidth (graph : Graph) (is64Bit : Bool) : Graph := { graph with is64Bit }

/-! ## Reachable elements -/

/-- The elements found so far, then those found from one more element on: the element itself, and
what it refers to, depth first. `fuel` bounds how deep the search nests. -/
def discoverFrom (graph : Graph) : Nat → List Handle → Handle → List Handle
  | 0, found, _ => found
  | fuel + 1, found, h =>
    if h ∈ found then found
    else (graph.element h).successors.foldl (graph.discoverFrom fuel) (found ++ [h])

/-- **The reachable elements**, each once, in the order of first visits from the exports. Every
nested step has found one more element, so the number of elements bounds the depth. -/
def discover (graph : Graph) : List Handle :=
  graph.exports.foldl (fun found entry => graph.discoverFrom (graph.size + 1) found entry.2) []

/-- A search passes over what it has found already: `graph.discoverFrom fuel found h = found`. -/
@[simp] theorem discoverFrom_of_mem {graph : Graph} {fuel : Nat} {found : List Handle} {h : Handle}
    (hm : h ∈ found) : graph.discoverFrom fuel found h = found := by
  cases fuel <;> simp [discoverFrom, hm]

end Graph

end ModuleSurface
