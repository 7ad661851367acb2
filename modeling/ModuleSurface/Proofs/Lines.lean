import ModuleSurface.Definitions.Build
import ModuleSurface.Proofs.DepthFirst
import ModuleSurface.Proofs.Outcome

/-! # Definitions as lines

What a build writes, said without a state: every declaration is some opening lines, the lines of
what is declared inside it, one level deeper, and some closing lines. A declaration knows its level
from where it stands and not from a counter, and whether an element is declared at all is not asked
here but decided by the forest that is written.

* **`Graph.opening`**, **`Graph.closing`** — the lines around what is declared inside an element.
* **`Graph.resolved`**, **`Graph.next`** — the elements that a walk declares for an element that it
  comes to, and those it goes on to inside a declared one.
* **`Graph.lines`** — the lines of a forest of declarations. -/

namespace ModuleSurface

/-- **A line** of definitions: how deep it stands, and its pieces, with what ends it. -/
structure Line where
  level : Nat
  pieces : List Fragment

namespace Line

/-- The indentation at a level; at level zero there is none. -/
def indentation (level : Nat) : List Fragment :=
  if level = 0 then [] else [some (IndentedText.repeated "  " level)]

/-- The fragments of a line. -/
def fragments (line : Line) : List Fragment := indentation line.level ++ line.pieces

/-- The line some levels deeper. -/
def deeper (levels : Nat) (line : Line) : Line := { line with level := levels + line.level }

/-- The line that opens a block with a header. -/
def opener (level : Nat) (header : List Fragment) : Line :=
  ⟨level, header ++ [some " \x7b", some "\n"]⟩

/-- The line that closes a block. -/
def closer : Line := ⟨0, [some "\x7d", some "", some "\n"]⟩

/-- There is no indentation at level zero: `indentation 0 = []`. -/
@[simp] theorem indentation_zero : indentation 0 = [] := rfl

/-- A line that is moved stands as many levels deeper:
`(line.deeper levels).level = levels + line.level`. -/
@[simp] theorem level_deeper (levels : Nat) (line : Line) :
    (line.deeper levels).level = levels + line.level := rfl

/-- A line that is moved keeps its pieces: `(line.deeper levels).pieces = line.pieces`. -/
@[simp] theorem pieces_deeper (levels : Nat) (line : Line) :
    (line.deeper levels).pieces = line.pieces := rfl

/-- The line at a level is moved to another level:
`deeper levels ⟨level, pieces⟩ = ⟨levels + level, pieces⟩`. -/
@[simp] theorem deeper_mk (levels level : Nat) (pieces : List Fragment) :
    deeper levels ⟨level, pieces⟩ = ⟨levels + level, pieces⟩ := rfl

/-- An opening line that is moved is an opening line. -/
@[simp] theorem deeper_opener (levels level : Nat) (header : List Fragment) :
    (opener level header).deeper levels = opener (levels + level) header := rfl

/-- A line that is moved by no level stays where it is: `line.deeper 0 = line`. -/
@[simp] theorem deeper_zero (line : Line) : line.deeper 0 = line := by
  simp [deeper]

end Line

/-- The fragments of lines, in order. -/
def fragmentsOf (lines : List Line) : List Fragment := lines.flatMap Line.fragments

/-- No lines have no fragments: `fragmentsOf [] = []`. -/
@[simp] theorem fragmentsOf_nil : fragmentsOf [] = [] := rfl

/-- The fragments of the first line stand before those of the others. -/
@[simp] theorem fragmentsOf_cons (line : Line) (lines : List Line) :
    fragmentsOf (line :: lines) = line.fragments ++ fragmentsOf lines := rfl

/-- The fragments of lines stand before those of the lines behind them. -/
@[simp] theorem fragmentsOf_append (lines others : List Line) :
    fragmentsOf (lines ++ others) = fragmentsOf lines ++ fragmentsOf others := by
  simp [fragmentsOf]

/-- What follows a comma in a list of parameters stands behind one. -/
def commaBefore (place : Nat) : List Fragment := if place = 0 then [] else [some ", "]

namespace Graph

/-- The word in front of a constant. -/
def constWords (element : Element) : List Fragment :=
  if element.flags.inlined then [some "const "] else []

/-- What stands in front of the key of an enum value, by whether its payload follows. -/
def valueFront : Dialect → Bool → List Fragment
  | .webidl, true => [some "const unsigned long "]
  | .webidl, false => [some "readonly unsigned long "]
  | .typescript, _ => []

/-- What ends the line of an enum value. -/
def valueEnd : Dialect → List Fragment
  | .webidl => [some ";", some "\n"]
  | .typescript => [some ",\n"]

/-- The pieces of an entry of an enum: its key, and its payload if that is a constant. -/
def valueWords (graph : Graph) (dialect : Dialect) (entry : Scalar × Handle) :
    Except RenderError (List Fragment) :=
  let key := (Value.scalar entry.1).text?
  if (graph.element entry.2).flags.inlined then do
    let payload ← enumValueText (graph.element entry.2).body
    return valueFront dialect true ++ [key, some " = ", some payload] ++ valueEnd dialect
  else .ok (valueFront dialect false ++ [key] ++ valueEnd dialect)

/-- The pieces of the parameters from a place on. -/
def parameterWords (dialect : Dialect) (is64Bit : Bool) (signature : Signature) :
    Nat → List (Option ValueType) → Except RenderError (List Fragment)
  | _, [] => .ok []
  | place, type :: rest => do
    let spelled ← dialect.spellType is64Bit type
    let others ← parameterWords dialect is64Bit signature (place + 1) rest
    return commaBefore place
      ++ dialect.parameterPieces spelled (signature.parameterName place).text? ++ others

namespace WebIdl

/-- The payload of a constant; nothing without the flag or the payload. -/
def payloadWords (element : Element) (constant : Option Constant) :
    Except RenderError (List Fragment) :=
  match element.flags.inlined, constant with
  | true, some constant => do return [some " = ", some (← constantText constant)]
  | _, _ => .ok []

/-- The pieces of a global. -/
def globalWords (graph : Graph) (element : Element) (type : Option ValueType)
    (constant : Option Constant) : Except RenderError (List Fragment) := do
  let spelled ← Dialect.webidl.spellType graph.is64Bit type
  let payload ← payloadWords element constant
  return constWords element ++ [some spelled, some " ", element.name.text?] ++ payload
    ++ [some ";\n"]

/-- The pieces of a function. -/
def functionWords (graph : Graph) (element : Element) (signature : Signature) :
    Except RenderError (List Fragment) := do
  let result ← Dialect.webidl.spellType graph.is64Bit signature.returnType
  let parameters ← parameterWords .webidl graph.is64Bit signature 0 signature.parameterTypes
  return [some result, some " ", element.name.text?, some "("] ++ parameters ++ [some ");\n"]

/-- The lines in front of what is declared inside an element. -/
def opening (graph : Graph) (element : Element) : Except RenderError (List Line) :=
  let header := Line.opener 0 [some "interface ", element.name.text?]
  match element.body with
  | .global type constant => do return [⟨0, ← globalWords graph element type constant⟩]
  | .enumeration => do
    let values ← (graph.enumValues element.memberItems).mapM (graph.valueWords .webidl)
    return header :: values.map (Line.mk 1)
  | .function signature => do
    let words ← functionWords graph element signature
    return ⟨0, words⟩ :: (if element.memberItems = [] then [] else [header])
  | .classType _ | .interfaceType _ | .nameSpace => .ok [header]
  | .enumValue _ => .error (.unsupportedElement .enumValue element.name)
  | .functionPrototype _ | .classPrototype _ => .error .wrongSort

/-- The lines behind what is declared inside an element. -/
def closing (element : Element) : List Line :=
  match element.body with
  | .global .. => []
  | .function _ => if element.memberItems = [] then [] else [Line.closer]
  | _ => [Line.closer]

end WebIdl

namespace TypeScript

/-- The header of the namespace for members; there is none without members. -/
def membersHeader (element : Element) (members : List Handle) : List Line :=
  if members = [] then [] else [Line.opener 0 [some "namespace ", element.name.text?]]

/-- The pieces of a global. -/
def globalWords (graph : Graph) (element : Element) (type : Option ValueType) :
    Except RenderError (List Fragment) := do
  let spelled ← Dialect.typescript.spellType graph.is64Bit type
  return constWords element ++ [element.name.text?, some ": ", some spelled, some ";\n"]

/-- The pieces of a function. -/
def functionWords (graph : Graph) (element : Element) (signature : Signature) :
    Except RenderError (List Fragment) := do
  let parameters ← parameterWords .typescript graph.is64Bit signature 0 signature.parameterTypes
  let result ← Dialect.typescript.spellType graph.is64Bit signature.returnType
  return [some "function ", element.name.text?, some "("] ++ parameters
    ++ [some "): ", some result, some ";\n"]

/-- The lines in front of what is declared inside an element. -/
def opening (graph : Graph) (element : Element) : Except RenderError (List Line) :=
  let name := element.name.text?
  let members := element.memberItems.map (·.2)
  match element.body with
  | .global type _ => do
    let words ← globalWords graph element type
    return ⟨0, words⟩ :: membersHeader element members
  | .enumeration => do
    let values ← (graph.enumValues element.memberItems).mapM (graph.valueWords .typescript)
    return Line.opener 0 [some "enum ", name] :: values.map (Line.mk 1) ++ Line.closer
      :: membersHeader element (graph.otherMembers element.memberItems)
  | .function signature => do
    let words ← functionWords graph element signature
    return ⟨0, words⟩ :: membersHeader element members
  | .classType links | .interfaceType links =>
    .ok [Line.opener 0 (classWords element ++ [name] ++ baseWords graph links.base)]
  | .nameSpace => .ok (membersHeader element members)
  | .enumValue _ => .error (.unsupportedElement .enumValue element.name)
  | .functionPrototype _ | .classPrototype _ => .error .wrongSort

/-- The lines behind what is declared inside an element. -/
def closing (graph : Graph) (element : Element) : List Line :=
  match element.body with
  | .enumeration => if graph.otherMembers element.memberItems = [] then [] else [Line.closer]
  | .classType _ | .interfaceType _ => [Line.closer]
  | _ => if element.memberItems = [] then [] else [Line.closer]

end TypeScript

/-- **The opening lines** of a declaration, or why it is not written. Where several things stand
against it, the first one counts in the order of writing. -/
def opening (graph : Graph) : Dialect → Handle → Except RenderError (List Line)
  | .webidl, h => WebIdl.opening graph (graph.element h)
  | .typescript, h => TypeScript.opening graph (graph.element h)

/-- **The closing lines** of a declaration. -/
def closing (graph : Graph) : Dialect → Handle → List Line
  | .webidl, h => WebIdl.closing (graph.element h)
  | .typescript, h => TypeScript.closing graph (graph.element h)

/-- In WebIDL an element opens with `WebIdl.opening`. -/
@[simp] theorem opening_webidl (graph : Graph) (h : Handle) :
    graph.opening .webidl h = WebIdl.opening graph (graph.element h) := rfl

/-- In TypeScript an element opens with `TypeScript.opening`. -/
@[simp] theorem opening_typescript (graph : Graph) (h : Handle) :
    graph.opening .typescript h = TypeScript.opening graph (graph.element h) := rfl

/-- In WebIDL an element closes with `WebIdl.closing`. -/
@[simp] theorem closing_webidl (graph : Graph) (h : Handle) :
    graph.closing .webidl h = WebIdl.closing (graph.element h) := rfl

/-- In TypeScript an element closes with `TypeScript.closing`. -/
@[simp] theorem closing_typescript (graph : Graph) (h : Handle) :
    graph.closing .typescript h = TypeScript.closing graph (graph.element h) := rfl

/-! ## Which elements are declared -/

/-- **What is declared for an element** that a walk comes to: a compiled element for itself, and for
a prototype its compiled instances. An enum value stands for itself, compiled or not; its opening
refuses it. -/
def resolved (graph : Graph) (h : Handle) : List Handle :=
  match (graph.element h).body with
  | .functionPrototype instances | .classPrototype instances =>
    instances.filter fun i => (graph.element i).isCompiled
  | .enumValue _ => [h]
  | _ => if (graph.element h).isCompiled then [h] else []

/-- **The members that a declaration goes on to.** Those of a global count in TypeScript only, and
those of a class never do; the values of an enum belong to its opening. -/
def expanded (graph : Graph) (dialect : Dialect) (h : Handle) : List Handle :=
  let members := (graph.element h).memberItems
  match (graph.element h).body with
  | .global .. => if dialect = .typescript then members.map (·.2) else []
  | .enumeration => graph.otherMembers members
  | .function _ | .nameSpace => members.map (·.2)
  | _ => []

/-- **What is declared inside** a declared element. -/
def next (graph : Graph) (dialect : Dialect) (h : Handle) : List Handle :=
  (graph.expanded dialect h).flatMap graph.resolved

/-- **What is declared at the top level.** -/
def roots (graph : Graph) : List Handle := graph.exports.flatMap fun entry => graph.resolved entry.2

/-! ## Lines of forests -/

/-- **The lines of a forest** of declarations at a level, or the first thing that stands against
writing them. -/
def lines (graph : Graph) (dialect : Dialect) :
    Nat → Forest Handle → Except RenderError (List Line)
  | _, .nil => .ok []
  | level, .node h inside rest => do
    let opening ← graph.opening dialect h
    let within ← graph.lines dialect (level + 1) inside
    let after ← graph.lines dialect level rest
    return opening.map (Line.deeper level) ++ within
      ++ (graph.closing dialect h).map (Line.deeper level) ++ after

/-- An empty forest has no lines: `graph.lines dialect level .nil = .ok []`. -/
@[simp] theorem lines_nil (graph : Graph) (dialect : Dialect) (level : Nat) :
    graph.lines dialect level .nil = .ok [] := rfl

/-- The lines of a node are written around what is inside it, and before the other trees. -/
theorem lines_node (graph : Graph) (dialect : Dialect) (level : Nat) (h : Handle)
    (inside rest : Forest Handle) :
    graph.lines dialect level (.node h inside rest) = (do
      let opening ← graph.opening dialect h
      let within ← graph.lines dialect (level + 1) inside
      let after ← graph.lines dialect level rest
      return opening.map (Line.deeper level) ++ within
        ++ (graph.closing dialect h).map (Line.deeper level) ++ after) := rfl

/-- The lines of `forest.append other` are those of one forest after those of the other. -/
theorem lines_append (graph : Graph) (dialect : Dialect) (level : Nat)
    (forest other : Forest Handle) :
    graph.lines dialect level (forest.append other) = (do
      let first ← graph.lines dialect level forest
      let second ← graph.lines dialect level other
      return first ++ second) := by
  induction forest with
  | nil => cases h : graph.lines dialect level other <;> simp [h, pure_eq_ok]
  | node h inside rest _ ih =>
    rw [Forest.node_append, lines_node, lines_node, ih]
    simp only [bind_assoc, pure_bind, List.append_assoc]

/-! ## What stands against the lines -/

variable {graph : Graph} {dialect : Dialect} {h : Handle} {level : Nat}

/-- What stands against the lines of one element. -/
def failure? (graph : Graph) (dialect : Dialect) (h : Handle) : Option RenderError :=
  match graph.opening dialect h with
  | .ok _ => none
  | .error cause => some cause

/-- **What stands against the lines of a forest** is what stands against those of its first element
that has something against it, in preorder by `failure?`. -/
theorem lines_eq_error_iff {forest : Forest Handle} {cause : RenderError} :
    graph.lines dialect level forest = .error cause ↔
      forest.preorder.findSome? (graph.failure? dialect) = some cause := by
  induction forest generalizing level cause with
  | nil => simp
  | node h inside rest ihInside ihRest =>
    rw [lines_node, Forest.preorder_node, List.findSome?_cons, failure?]
    cases hopening : graph.opening dialect h with
    | error other => simp
    | ok opening =>
      rw [ok_bind, List.findSome?_append]
      -- what is inside comes before what is behind, in the lines as in the order
      cases hinside : graph.lines dialect (level + 1) inside with
      | error other =>
        rw [ihInside.mp hinside]
        simp
      | ok within =>
        have hnone : inside.preorder.findSome? (graph.failure? dialect) = none := by
          by_contra hsome
          obtain ⟨other, hother⟩ := Option.ne_none_iff_exists'.mp hsome
          rw [ihInside.mpr hother] at hinside
          cases hinside
        have hrest : graph.lines dialect level rest = .error cause ↔ _ := ihRest
        rw [ok_bind, hnone, Option.none_or, ← hrest]
        cases graph.lines dialect level rest <;> simp [pure_eq_ok]

/-- What stands against the lines of a forest stands against those of one of its elements. -/
theorem exists_of_lines_error {forest : Forest Handle} {cause : RenderError}
    (hlines : graph.lines dialect level forest = .error cause) :
    ∃ h ∈ forest.preorder, graph.opening dialect h = .error cause := by
  obtain ⟨h, hmem, hfailure⟩ := List.exists_of_findSome?_eq_some (lines_eq_error_iff.mp hlines)
  refine ⟨h, hmem, ?_⟩
  unfold failure? at hfailure
  split at hfailure
  · cases hfailure
  · rename_i other hopening
    rw [hopening, Option.some.inj hfailure]

/-- The lines of a node are those of its opening, of what is inside, of its closing and of what
follows. -/
theorem exists_of_lines_node {inside rest : Forest Handle} {lines : List Line}
    (hlines : graph.lines dialect level (.node h inside rest) = .ok lines) :
    ∃ opening within after, graph.opening dialect h = .ok opening ∧
      graph.lines dialect (level + 1) inside = .ok within ∧
      graph.lines dialect level rest = .ok after ∧
      lines = opening.map (Line.deeper level) ++ within
        ++ (graph.closing dialect h).map (Line.deeper level) ++ after := by
  rw [lines_node] at hlines
  obtain ⟨opening, hopening, hlines⟩ := bind_eq_ok_iff.mp hlines
  obtain ⟨within, hwithin, hlines⟩ := bind_eq_ok_iff.mp hlines
  obtain ⟨after, hafter, hlines⟩ := bind_eq_ok_iff.mp hlines
  cases hlines
  exact ⟨opening, within, after, hopening, hwithin, hafter, rfl⟩

end Graph

end ModuleSurface
