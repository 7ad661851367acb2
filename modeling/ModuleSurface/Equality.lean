import ModuleSurface.Graph

/-! # Equality of elements by content

Two elements are equal by content when they have the same kind and all that they hold is equal,
elements that they refer to by content again. Handles do not count, the order of member maps does
not either, and numbers are compared by value: not a number differs from every number.

Elements that contain themselves may give no answer: the comparison asks one question after another
and stops at the first difference, and where it comes back to a question that is still open, it has
no end. -/

namespace ModuleSurface

/-- Equality of values: scalars by value, lists and maps by identity. -/
def Value.sameValue : Value → Value → Bool
  | .scalar s, .scalar t => s.sameValue t
  | v, w => v == w

/-- Equality of optional things. -/
def sameOption {α : Type} (same : α → α → Bool) : Option α → Option α → Bool
  | none, none => true
  | some a, some b => same a b
  | _, _ => false

/-- Equality of lists, item by item. -/
def sameList {α : Type} (same : α → α → Bool) : List α → List α → Bool
  | [], [] => true
  | a :: as, b :: bs => same a b && sameList same as bs
  | _, _ => false

/-- Equality of types. -/
def ValueType.sameType (a b : ValueType) : Bool :=
  a.kind == b.kind && sameOption Value.sameValue a.classReference b.classReference
    && sameOption Value.sameValue a.signatureReference b.signatureReference

/-- Equality of constants. -/
def Constant.sameConstant (a b : Constant) : Bool := a.kind == b.kind && a.value.sameValue b.value

/-- Equality of signatures. -/
def Signature.sameSignature (a b : Signature) : Bool :=
  sameList (sameOption ValueType.sameType) a.parameterTypes b.parameterTypes
    && sameList Value.sameValue a.parameterNames b.parameterNames
    && sameOption ValueType.sameType a.returnType b.returnType

/-- An answer about elements: yes, no, or none where the comparison has no end. -/
abbrev Verdict := Option Bool

/-- Whether the answers for all members of a list are yes. They are asked for in order, up to the
first that is not. -/
def allSame {α : Type} (same : α → Verdict) : List α → Verdict
  | [] => some true
  | a :: rest => do if ← same a then allSame same rest else some false

/-- Equality of optional elements or maps. -/
def sameReference {α : Type} (same : α → α → Verdict) : Option α → Option α → Verdict
  | none, none => some true
  | some a, some b => same a b
  | _, _ => some false

/-- Equality of lists of elements: their lengths first, then item by item. -/
def sameInstances (same : Handle → Handle → Verdict) (as bs : List Handle) : Verdict :=
  if as.length = bs.length then allSame (fun pair => same pair.1 pair.2) (as.zip bs)
  else some false

/-- Equality of member maps, without regard to their order: their sizes first, then for each member
of the first map the member of the second one under its key. -/
def sameMembers (same : Handle → Handle → Verdict) (a b : Members) : Verdict :=
  if a.length = b.length then
    allSame (fun entry =>
      match b.find? fun other => other.1.sameKey entry.1 with
      | some other => same other.2 entry.2
      | none => some false) a
  else some false

/-- Equality of what classes refer to. -/
def ClassLinks.sameLinks (same : Handle → Handle → Verdict) (a b : ClassLinks) : Verdict := do
  if ← sameReference same a.base b.base then
    if ← sameReference (sameMembers same) a.staticMembers b.staticMembers then
      sameReference (sameMembers same) a.instanceMembers b.instanceMembers
    else some false
  else some false

/-- Equality of bodies. -/
def Body.sameBody (same : Handle → Handle → Verdict) : Body → Body → Verdict
  | .global type constant, .global type' constant' =>
    some (sameOption ValueType.sameType type type'
      && sameOption Constant.sameConstant constant constant')
  | .enumeration, .enumeration => some true
  | .enumValue value, .enumValue value' => some (value.sameValue value')
  | .functionPrototype instances, .functionPrototype instances' =>
    sameInstances same instances instances'
  | .function signature, .function signature' => some (signature.sameSignature signature')
  | .classPrototype instances, .classPrototype instances' => sameInstances same instances instances'
  | .classType links, .classType links' => links.sameLinks same links'
  | .interfaceType links, .interfaceType links' => links.sameLinks same links'
  | .nameSpace, .nameSpace => some true
  | _, _ => some false

namespace Graph

/-- Equality of elements, followed `fuel` steps deep; an element always equals itself. -/
def sameWithin (graph : Graph) : Nat → Handle → Handle → Verdict
  | 0, _, _ => none
  | fuel + 1, h, h' =>
    let a := graph.element h
    let b := graph.element h'
    if h = h' then some true
    else if a.kind = b.kind && a.name.sameValue b.name && a.flags == b.flags then do
      if ← sameReference (sameMembers (graph.sameWithin fuel)) a.members b.members then
        a.body.sameBody (graph.sameWithin fuel) b.body
      else some false
    else some false

/-- **Equality of elements by content**; none where the comparison has no end. One that asks about
more pairs of elements within each other than there are comes back to a pair. -/
def sameElement (graph : Graph) (h h' : Handle) : Verdict :=
  graph.sameWithin (graph.size * graph.size + 1) h h'

/-- An element is the same as itself, without a look at what it holds:
`graph.sameElement h h = some true`. -/
@[simp] theorem sameElement_self (graph : Graph) (h : Handle) :
    graph.sameElement h h = some true := by
  simp [sameElement, sameWithin]

end Graph

end ModuleSurface
