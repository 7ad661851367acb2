import ModuleSurface.Graph

/-! # An example module

A small module surface with declarations of every kind: constants, plain globals, an enum, a generic
function of which one instance is not compiled, namespaces (one of them empty), classes with a
base, an abstract class and an interface. -/

namespace ModuleSurface

namespace Example

/-- A step of writing down a graph. -/
abbrev Drafting := StateM Graph

/-- A new element. -/
def define (name : String) (flags : Flags) (body : Body) (members : Option Members := none) :
    Drafting Handle := fun graph =>
  (graph.elements.size,
    { graph with elements := graph.elements.push ⟨.text name, flags, members, body⟩ })

/-- Exports an element under its name. -/
def publish (name : String) (h : Handle) : Drafting Unit := fun graph =>
  ((), graph.add h (.text name))

/-- The flags of what is used. -/
def used : Flags := { compiled := true }

/-- The flags of a constant that is used. -/
def constant : Flags := { compiled := true, inlined := true }

/-- The body of a global. -/
def globalBody (kind : PrimitiveKind) (payload : Option Constant := none) : Body :=
  .global (some (.plain kind)) payload

/-- A function with named parameters of plain types. -/
def defineFunction (name : String) (flags : Flags) (parameters : List (String × PrimitiveKind))
    (result : PrimitiveKind) : Drafting Handle :=
  define name flags (.function
    { parameterTypes := parameters.map fun p => some (.plain p.2)
      parameterNames := parameters.map fun p => .text p.1
      returnType := some (.plain result) })

/-- A class prototype with one instance. -/
def publishClass (name : String) (instanceOf : Handle) : Drafting Unit := do
  publish name (← define name .none (.classPrototype [instanceOf]))

/-- The declarations of the example, in order. -/
def draft : Drafting Unit := do
  publish "VERSION" (← define "VERSION" constant (globalBody .i32 (some ⟨.integer, .int 7⟩)))
  let half : Double := Double.ofDecimal false 5 (-1)
  publish "EPSILON" (← define "EPSILON" constant (globalBody .f64 (some ⟨.float, .float half⟩)))
  publish "counter" (← define "counter" used (globalBody .u32))
  publish "heapBase" (← define "heapBase" used (globalBody .usize))
  publish "unused" (← define "unused" .none (globalBody .i32))
  let red ← define "RED" constant (.enumValue (.int 0))
  let green ← define "GREEN" constant (.enumValue (.int 1))
  let blue ← define "BLUE" constant (.enumValue (.int 2))
  publish "Color" (← define "Color" used .enumeration
    (some [(.text "RED", red), (.text "GREEN", green), (.text "BLUE", blue)]))
  let maxI32 ← defineFunction "max" used [("a", .i32), ("b", .i32)] .i32
  let maxF64 ← defineFunction "max" used [("a", .f64), ("b", .f64)] .f64
  let maxI64 ← defineFunction "max" .none [("a", .i64), ("b", .i64)] .i64
  publish "max" (← define "max" .none (.functionPrototype [maxI32, maxF64, maxI64]))
  let reset ← defineFunction "reset" used [] .void
  publish "reset" (← define "reset" .none (.functionPrototype [reset]))
  let pi : Double := Double.ofDecimal false 3141592653589793 (-15)
  let piHandle ← define "PI" constant (globalBody .f64 (some ⟨.float, .float pi⟩))
  let abs ← defineFunction "abs" used [("x", .f64)] .f64
  let absPrototype ← define "abs" .none (.functionPrototype [abs])
  publish "math" (← define "math" used .nameSpace
    (some [(.text "PI", piHandle), (.text "abs", absPrototype)]))
  publish "empty" (← define "empty" used .nameSpace (some []))
  let shape ← define "Shape" { compiled := true, abstract := true } (.classType {})
  publishClass "Shape" shape
  publishClass "Circle" (← define "Circle" used (.classType { base := some shape }))
  publishClass "Drawable" (← define "Drawable" used (.interfaceType {}))

end Example

/-- **The example module**, under an addressing width. -/
def Graph.example (is64Bit : Bool) : Graph := (Example.draft.run { is64Bit }).2

end ModuleSurface
