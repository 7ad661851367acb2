import ModuleSurface.ValueType

/-! # Elements of an export graph

An element is one declaration of a compiled module. Elements refer to each other by handles, so an
element can be a member of several others, or of itself; two elements are the same exactly when
their handles are. What an element holds besides its name, flags and members depends on its kind
and is its body. -/

namespace ModuleSurface

/-- **The kinds of declarations** in an export graph. -/
inductive ElementKind
  | global | enumeration | enumValue | functionPrototype | function | classPrototype | classType
  | interfaceType | nameSpace
deriving DecidableEq, Repr

namespace ElementKind

/-- The name of a kind in a serialized graph and in messages. -/
def name : ElementKind → String
  | .global => "global"
  | .enumeration => "enum"
  | .enumValue => "enum_value"
  | .functionPrototype => "function_prototype"
  | .function => "function"
  | .classPrototype => "class_prototype"
  | .classType => "class"
  | .interfaceType => "interface"
  | .nameSpace => "namespace"

/-- All kinds, in the order in which they are listed. -/
def all : List ElementKind :=
  [.global, .enumeration, .enumValue, .functionPrototype, .function, .classPrototype, .classType,
    .interfaceType, .nameSpace]

/-- The kind of a name. -/
def ofName? (name : String) : Option ElementKind := all.find? fun kind => kind.name == name

/-- Reading the name of a kind gives the kind: `ofName? kind.name = some kind`. -/
@[simp] theorem ofName?_name (kind : ElementKind) : ofName? kind.name = some kind := by
  cases kind <;> decide

/-- A name that is read is the name of what is read. -/
theorem name_of_ofName? {name : String} {kind : ElementKind} (h : ofName? name = some kind) :
    kind.name = name := by
  simpa using List.find?_some h

end ElementKind

/-- **Flags of an element**: whether it is used in the compiled module, whether its value is a
compile-time constant, and whether it is a class without instances. -/
structure Flags where
  compiled : Bool := false
  inlined : Bool := false
  abstract : Bool := false
deriving DecidableEq, Repr

namespace Flags

/-- No flag at all. -/
def none : Flags := {}

/-- The flags of either of two sets. -/
def union (a b : Flags) : Flags :=
  ⟨a.compiled || b.compiled, a.inlined || b.inlined, a.abstract || b.abstract⟩

/-- Whether all flags of the second set are in the first. -/
def contains (a b : Flags) : Bool :=
  (!b.compiled || a.compiled) && (!b.inlined || a.inlined) && (!b.abstract || a.abstract)

/-- Every set of flags contains `none`. -/
@[simp] theorem contains_none (a : Flags) : a.contains none = true := rfl

/-- The single flag of a name. -/
def ofName? : String → Option Flags
  | "compiled" => some { compiled := true }
  | "inlined" => some { inlined := true }
  | "abstract" => some { abstract := true }
  | _ => Option.none

/-- The names of the flags of a set, in a fixed order. -/
def names (flags : Flags) : List String :=
  (if flags.compiled then ["compiled"] else []) ++ (if flags.inlined then ["inlined"] else [])
    ++ (if flags.abstract then ["abstract"] else [])

/-- No flags have no names: `none.names = []`. -/
@[simp] theorem names_none : none.names = [] := rfl

end Flags

/-- **A handle** of an element: its place among the elements of a graph. -/
abbrev Handle := Nat

/-- **A member map**: names and elements, in declaration order. -/
abbrev Members := List (Scalar × Handle)

/-- The two sorts of payloads of a constant. -/
inductive ConstantKind
  | integer | float
deriving DecidableEq, Repr

namespace ConstantKind

/-- The name of a sort in a serialized graph. -/
def name : ConstantKind → String
  | .integer => "integer"
  | .float => "float"

/-- The sort of a name. -/
def ofName? : String → Option ConstantKind
  | "integer" => some .integer
  | "float" => some .float
  | _ => none

/-- Reading the name of a kind of constants gives the kind: `ofName? kind.name = some kind`. -/
@[simp] theorem ofName?_name (kind : ConstantKind) : ofName? kind.name = some kind := by
  cases kind <;> decide

end ConstantKind

/-- **A compile-time constant**: how it is to be written, and its payload as it was given. -/
structure Constant where
  kind : ConstantKind
  value : Scalar
deriving DecidableEq

/-- **A function signature.** The names may be fewer or more than the types. -/
structure Signature where
  parameterTypes : List (Option ValueType) := []
  parameterNames : List Value := []
  returnType : Option ValueType := some (.plain .void)
deriving DecidableEq

namespace Signature

/-- The name of a parameter: its own, or one made from its place. -/
def parameterName (signature : Signature) (place : Nat) : Value :=
  signature.parameterNames.getD place (.text s!"arg{place}")

/-- The name of a parameter whose place may be counted from the end of the names: -1 is the last
name. A place before the first name is none. -/
def parameterName? (signature : Signature) (place : Int) : Option Value :=
  let fromStart := if place < 0 then place + signature.parameterNames.length else place
  if fromStart < 0 then none else some (signature.parameterName fromStart.toNat)

/-- At a place that is no negative number `parameterName?` answers `parameterName`. -/
@[simp] theorem parameterName?_natCast (signature : Signature) (place : Nat) :
    signature.parameterName? place = some (signature.parameterName place) := by
  have h : ¬ (place : Int) < 0 := by omega
  simp [parameterName?, h]

/-- The names of as many parameters as there are types. -/
def names (signature : Signature) : List Value :=
  (List.range signature.parameterTypes.length).map signature.parameterName

/-- There are as many `names` as there are types of parameters. -/
@[simp] theorem length_names (signature : Signature) :
    signature.names.length = signature.parameterTypes.length := by
  simp [names]

end Signature

/-- **What a class or an interface refers to**: its base, and its member maps. -/
structure ClassLinks where
  base : Option Handle := none
  staticMembers : Option Members := none
  instanceMembers : Option Members := none
deriving DecidableEq

/-- **The body** of an element: what its kind adds to it. -/
inductive Body
  | global (type : Option ValueType) (constant : Option Constant)
  | enumeration
  | enumValue (value : Scalar)
  | functionPrototype (instances : List Handle)
  | function (signature : Signature)
  | classPrototype (instances : List Handle)
  | classType (links : ClassLinks)
  | interfaceType (links : ClassLinks)
  | nameSpace
deriving DecidableEq

namespace Body

/-- The kind of elements with such a body. -/
def kind : Body → ElementKind
  | .global .. => .global
  | .enumeration => .enumeration
  | .enumValue _ => .enumValue
  | .functionPrototype _ => .functionPrototype
  | .function _ => .function
  | .classPrototype _ => .classPrototype
  | .classType _ => .classType
  | .interfaceType _ => .interfaceType
  | .nameSpace => .nameSpace

/-- The instances of a prototype. -/
def instances : Body → List Handle
  | .functionPrototype instances | .classPrototype instances => instances
  | _ => []

/-- What a class or an interface refers to. -/
def classLinks? : Body → Option ClassLinks
  | .classType links | .interfaceType links => some links
  | _ => none

/-- The elements that a body refers to: instances, or the base and then the members. -/
def links : Body → List Handle
  | .functionPrototype instances | .classPrototype instances => instances
  | .classType links | .interfaceType links =>
    links.base.toList ++ (links.staticMembers.getD []).map (·.2)
      ++ (links.instanceMembers.getD []).map (·.2)
  | _ => []

end Body

/-- **An element**: its name, its flags, its members if it has a member map, and its body. -/
structure Element where
  name : Value
  flags : Flags := .none
  members : Option Members := none
  body : Body
deriving DecidableEq

namespace Element

instance : Inhabited Element := ⟨{ name := .null, body := .nameSpace }⟩

/-- The kind of an element is that of its body. -/
def kind (element : Element) : ElementKind := element.body.kind

/-- Whether the element is used in the compiled module. -/
def isCompiled (element : Element) : Bool := element.flags.compiled

/-- The members in declaration order; a missing member map has none. -/
def memberItems (element : Element) : Members := element.members.getD []

/-- An element without members has no items of members: `element.memberItems = []`. -/
@[simp] theorem memberItems_of_members_none {element : Element} (h : element.members = none) :
    element.memberItems = [] := by
  simp [memberItems, h]

/-- The elements that an element refers to: its members, and then what its body refers to. -/
def successors (element : Element) : List Handle :=
  element.memberItems.map (·.2) ++ element.body.links

end Element

end ModuleSurface
