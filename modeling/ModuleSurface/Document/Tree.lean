import ModuleSurface.Document
import ModuleSurface.Text.Numeral

/-! # Trees: documents without sharing

A tree is a document written out in full, where every list and map stands at one place only. A text
that cannot express sharing holds a tree. `Document.ofTree` stores a tree with a fresh reference
for each of its lists and maps; `Store.unfold` writes a value out again, which is possible when no
list or map contains itself and all scalars have a written form. -/

namespace ModuleSurface

/-- **A tree**: a scalar, a list of trees, or a map from scalars to trees. -/
inductive Tree
  | scalar (s : Scalar)
  | list (items : List Tree)
  | map (entries : List (Scalar × Tree))

namespace Tree

instance : Inhabited Tree := ⟨.scalar .null⟩

mutual

/-- The store with the lists and maps of a tree added, inner ones first, and the value of the tree
in it. -/
def addTo : Tree → Store → Store × Value
  | .scalar s, store => (store, .scalar s)
  | .list items, store =>
    let (store, values) := addItems items store
    store.addList values
  | .map entries, store =>
    let (store, values) := addEntries entries store
    store.addMap values

/-- The store with the items of a list added, in order. -/
def addItems : List Tree → Store → Store × List Value
  | [], store => (store, [])
  | tree :: rest, store =>
    let (store, value) := tree.addTo store
    let (store, values) := addItems rest store
    (store, value :: values)

/-- The store with the entries of a map added, in order. -/
def addEntries : List (Scalar × Tree) → Store → Store × Entries
  | [], store => (store, [])
  | (key, tree) :: rest, store =>
    let (store, value) := tree.addTo store
    let (store, values) := addEntries rest store
    (store, (key, value) :: values)

end

end Tree

/-- **A tree as a document**, with a fresh reference for each list and map. -/
def Document.ofTree (tree : Tree) : Document :=
  let (store, root) := tree.addTo {}
  ⟨store, root⟩

/-- **Why a value is not written out** as a tree. -/
inductive UnfoldError
  /-- A list or a map contains itself. -/
  | cyclic
  /-- An integer has more digits than are written. -/
  | integerTooLong
  /-- A scalar is neither a number, a truth value, a text nor nothing, or a set stands there. -/
  | foreign
deriving DecidableEq, Repr

/-- A scalar as a leaf or a key of a tree. -/
def Scalar.leaf (s : Scalar) : Except UnfoldError Scalar :=
  match s with
  | .moment .. | .bytes _ => .error .foreign
  | .int n => if (Numeral.intText? n).isSome then .ok s else .error .integerTooLong
  | _ => .ok s

/-- A value written out in full, when it nests at most `fuel` deep. -/
def Store.unfoldWithin (store : Store) : Nat → Value → Except UnfoldError Tree
  | _, .scalar s => s.leaf.map .scalar
  | _, .set _ => .error .foreign
  -- a scalar needs no depth, so only lists and maps run out of it
  | 0, _ => .error .cyclic
  | fuel + 1, .list ref | fuel + 1, .pair ref => do
    let items ← (store.items ref).mapM (store.unfoldWithin fuel)
    return .list items
  | fuel + 1, .map ref => do
    let entries ← (store.entries ref).mapM fun entry => do
      return (← entry.1.leaf, ← store.unfoldWithin fuel entry.2)
    return .map entries

/-- **A value written out in full**, its pairs as lists, or the first thing in the order of writing
that stands against it. A path that is longer than what the store holds meets a list or a map
twice. -/
def Store.unfold (store : Store) (v : Value) : Except UnfoldError Tree :=
  store.unfoldWithin store.size v

/-- A document written out in full. -/
def Document.unfold (document : Document) : Except UnfoldError Tree :=
  document.store.unfold document.root

end ModuleSurface
