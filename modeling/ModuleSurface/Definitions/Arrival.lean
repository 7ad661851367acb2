import ModuleSurface.Graph

/-! # What a walk meets

A walk through the exports meets elements of every kind. A compiled one is declared, one that is
not compiled is skipped, a prototype stands for its instances, and an enum value has no declaration
outside its enum. This is a property of the element alone: whether it was declared before is no
concern here. -/

namespace ModuleSurface

/-- **The sorts of declarations** that a walk asks for. -/
inductive DeclarationSort
  | global | enumeration | function | classType | interfaceType | nameSpace
deriving DecidableEq, Repr

/-- The name of a sort of declarations. -/
def DeclarationSort.name : DeclarationSort → String
  | .global => "global"
  | .enumeration => "enum"
  | .function => "function"
  | .classType => "class"
  | .interfaceType => "interface"
  | .nameSpace => "namespace"

/-- **What a walk does with an element**: it declares it, or skips it. -/
inductive Arrival
  | declare (sort : DeclarationSort) (h : Handle)
  | skip (h : Handle)
deriving DecidableEq, Repr

namespace Graph

/-- Declares an element if it is compiled, and skips it if not. -/
def arrive (graph : Graph) (sort : DeclarationSort) (h : Handle) : Arrival :=
  if (graph.element h).isCompiled then .declare sort h else .skip h

/-- The sort of declaration of an instance of a class prototype. -/
def classSort (graph : Graph) (h : Handle) : DeclarationSort :=
  if (graph.element h).kind = .interfaceType then .interfaceType else .classType

/-- **The arrivals at an element**, in order; none for an enum value, which cannot be declared on
its own. -/
def arrivals? (graph : Graph) (h : Handle) : Option (List Arrival) :=
  match (graph.element h).body with
  | .global .. => some [graph.arrive .global h]
  | .enumeration => some [graph.arrive .enumeration h]
  -- a prototype is passed by: its own flags and members do not matter
  | .functionPrototype instances => some (instances.map (graph.arrive .function))
  | .function _ => some [graph.arrive .function h]
  | .classPrototype instances => some (instances.map fun i => graph.arrive (graph.classSort i) i)
  | .classType _ => some [graph.arrive .classType h]
  | .interfaceType _ => some [graph.arrive .interfaceType h]
  | .nameSpace => some [graph.arrive .nameSpace h]
  | .enumValue _ => none

/-- Exactly the enum values cannot be declared on their own: `arrivals?` has no answer for them. -/
theorem arrivals?_eq_none_iff (graph : Graph) (h : Handle) :
    graph.arrivals? h = none ↔ (graph.element h).kind = .enumValue := by
  unfold arrivals? Element.kind Body.kind
  cases (graph.element h).body <;> simp

end Graph

end ModuleSurface
