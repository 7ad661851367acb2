import ModuleSurface.Document

/-! # Trees that keep sharing

A document is written out so that all that has an identity, every list and map and every moment,
stands in full at the place where it is first met, and is only named at the others. This is possible
for every document, cyclic ones too. The order is depth first, in the order of items and entries.
-/

namespace ModuleSurface

/-- **A tree that keeps sharing**: a scalar, or a list or a map with the value that it is in the
store, or a value alone where it is met again. Pairs are written out as lists, and sets as maps from
their members to nothing. -/
inductive SharedTree
  | scalar (s : Scalar)
  | again (v : Value)
  | list (v : Value) (items : List SharedTree)
  | map (v : Value) (entries : List (SharedTree × SharedTree))

namespace SharedTree

instance : Inhabited SharedTree := ⟨.scalar .null⟩

mutual

/-- The values that are met again, each as often as that happens, in the order of the text. -/
def meetings : SharedTree → List Value
  | .scalar _ => []
  | .again v => [v]
  | .list _ items => meetingsOfItems items
  | .map _ entries => meetingsOfEntries entries

/-- The values that are met again in the items of a list. -/
def meetingsOfItems : List SharedTree → List Value
  | [] => []
  | tree :: rest => meetings tree ++ meetingsOfItems rest

/-- The values that are met again in the entries of a map. -/
def meetingsOfEntries : List (SharedTree × SharedTree) → List Value
  | [] => []
  | (key, tree) :: rest => meetings key ++ meetings tree ++ meetingsOfEntries rest

end

/-- A scalar meets no value again: `meetings (.scalar s) = []`. -/
@[simp] theorem meetings_scalar (s : Scalar) : meetings (.scalar s) = [] := by
  simp [meetings]

/-- What stands for `v` again meets `v` once. -/
@[simp] theorem meetings_again (v : Value) : meetings (.again v) = [v] := by
  simp [meetings]

/-- **The values that are met more than once**, each once, in the order in which they are met for
the second time. -/
def repeated (tree : SharedTree) : List Value := tree.meetings.eraseDups

end SharedTree

/-- Whether a scalar has an identity. -/
def Scalar.hasIdentity : Scalar → Bool
  | .moment .. => true
  | _ => false

/-- A step of writing a document out, which remembers what with an identity it has met. -/
abbrev Unfolding := StateM (List Value)

namespace Unfolding

/-- Whether a value is met for the first time; it is remembered. -/
def isNew (v : Value) : Unfolding Bool := fun met => (v ∉ met, v :: met)

/-- What a value is written out as where it is met first, and the value alone elsewhere. -/
def once (v : Value) (full : Unfolding SharedTree) : Unfolding SharedTree := do
  if ← isNew v then full else return .again v

/-- A scalar written out. -/
def scalar (s : Scalar) : Unfolding SharedTree :=
  if s.hasIdentity then once (.scalar s) (return .scalar s) else return .scalar s

end Unfolding

/-- A value written out, its lists and maps nesting at most `fuel` deep. -/
def Store.unfoldSharedWithin (store : Store) : Nat → Value → Unfolding SharedTree
  | _, .scalar s => Unfolding.scalar s
  | 0, v => return .again v
  | fuel + 1, .list ref => Unfolding.once (.list ref) do
      return .list (.list ref) (← (store.items ref).mapM (store.unfoldSharedWithin fuel))
  | fuel + 1, .pair ref => Unfolding.once (.pair ref) do
      return .list (.pair ref) (← (store.items ref).mapM (store.unfoldSharedWithin fuel))
  | fuel + 1, .map ref => Unfolding.once (.map ref) do
      -- a key that has an identity may be met again as a value
      let entries ← (store.entries ref).mapM fun entry => do
        return (← Unfolding.scalar entry.1, ← store.unfoldSharedWithin fuel entry.2)
      return .map (.map ref) entries
  | _ + 1, .set ref => Unfolding.once (.set ref) do
      let entries ← (store.entries ref).mapM fun entry => do
        return (← Unfolding.scalar entry.1, .scalar .null)
      return .map (.set ref) entries

/-- **A document written out with its sharing kept.** Every nested list or map is a new one, so they
do not nest deeper than the store has lists and maps. -/
def Document.unfoldShared (document : Document) : SharedTree :=
  ((document.store.unfoldSharedWithin (document.store.size + 1) document.root).run []).1

end ModuleSurface
