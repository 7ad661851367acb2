import ModuleSurface.Document.Number
import ModuleSurface.Document.Tree
import ModuleSurface.Element
import ModuleSurface.Schema.FormatError

/-! # The grammar of serialized graphs

Which trees are serialized export graphs, said of the trees alone: without a store, and without the
order in which a reader comes to their parts. Most fields may be left out, and not all in the same
way: for some nothing is the same as no field at all, for others it is a fault.

* **`Tree.IsType`**, **`Tree.IsFlags`**, **`Tree.IsConstant`**, **`Tree.IsSignature`** — the parts of
  an element.
* **`Tree.IsElement`** — a valid element, given the name that it inherits.
* **`Tree.IsGraph`** — a serialized graph. -/

namespace ModuleSurface

namespace Tree

/-- The tree of nothing. -/
abbrev null : Tree := .scalar .null

/-- The tree of a text. -/
abbrev text (s : String) : Tree := .scalar (.text s)

/-- Whether a tree counts as true: a list and a map do when they are not empty. -/
def truthy : Tree → Bool
  | .scalar s => s.truthy
  | .list items => !items.isEmpty
  | .map entries => !entries.isEmpty

/-- The first entry under a key that is a text. -/
def under? (name : String) (entries : List (Scalar × Tree)) : Option Tree :=
  (entries.find? fun entry => entry.1 == .text name).map (·.2)

/-- **The field of a name**; only a map has fields. -/
def field? (name : String) : Tree → Option Tree
  | .map entries => under? name entries
  | _ => none

/-- The field of a name, and nothing where there is none. -/
def field (name : String) (tree : Tree) : Tree := (tree.field? name).getD .null

/-- The name of an element: its own, and the inherited one where it has no such field. -/
def nameOr (tree inherited : Tree) : Tree := (tree.field? "name").getD inherited

/-- No entries have nothing under a name: `under? name [] = none`. -/
@[simp] theorem under?_nil (name : String) : under? name [] = none := rfl

/-- What stands under a name stands in the first entry of this name, or behind it. -/
theorem under?_cons (key : Scalar) (name : String) (tree : Tree) (entries : List (Scalar × Tree)) :
    under? name ((key, tree) :: entries)
      = if key = .text name then some tree else under? name entries := by
  by_cases h : key = .text name <;> simp [under?, h]

/-- The field of a map is what stands under its name:
`field? name (.map entries) = under? name entries`. -/
@[simp] theorem field?_map (name : String) (entries : List (Scalar × Tree)) :
    field? name (.map entries) = under? name entries := rfl

/-! ## Parts of an element -/

/-- **A type**: nothing, the name of a kind, or a map that names one. -/
inductive IsType : Tree → Prop
  | null : IsType .null
  | name (kind : PrimitiveKind) : IsType (.text kind.name)
  | map {entries : List (Scalar × Tree)} (kind : PrimitiveKind)
      (named : under? "kind" entries = some (.text kind.name)) : IsType (.map entries)

/-- **Flags**: nothing, or a list of the three names. -/
inductive IsFlags : Tree → Prop
  | null : IsFlags .null
  | list {items : List Tree}
      (each : ∀ item ∈ items, ∃ name ∈ ["compiled", "inlined", "abstract"], item = .text name) :
      IsFlags (.list items)

/-- **A scalar that converts** to a number of a sort. -/
inductive Converts : ConstantKind → Tree → Prop
  | integer {s : Scalar} {n : Int} (number : s.toInt = .ok n) : Converts .integer (.scalar s)
  | float {s : Scalar} {x : Double} (number : s.toDouble = .ok x) : Converts .float (.scalar s)

/-- **A constant**: nothing, or a map with a value that converts to the sort that is named. Where no
sort is named it is an integer. -/
inductive IsConstant : Tree → Prop
  | null : IsConstant .null
  | map {entries : List (Scalar × Tree)} {value : Tree} (kind : ConstantKind)
      (sort : (under? "kind" entries).getD (.text ConstantKind.integer.name) = .text kind.name)
      (given : under? "value" entries = some value) (number : Converts kind value) :
      IsConstant (.map entries)

/-- **A parameter**: a map with a type, which may be nothing, and a name, which may be anything. -/
structure IsParameter (tree : Tree) : Prop where
  type : ∃ type, tree.field? "type" = some type ∧ type.IsType
  name : ∃ name, tree.field? "name" = some name

/-- **Parameters**: a list of them, or something else without items. -/
inductive IsParameters : Tree → Prop
  | list {items : List Tree} (each : ∀ item ∈ items, IsParameter item) : IsParameters (.list items)
  | emptyText : IsParameters (.text "")
  | emptyBytes : IsParameters (.scalar (.bytes []))
  | emptyMap : IsParameters (.map [])

/-- A list is one of parameters when each item is a parameter. -/
theorem isParameters_list_iff {items : List Tree} :
    IsParameters (.list items) ↔ ∀ item ∈ items, IsParameter item := by
  constructor
  · rintro ⟨each⟩
    exact each
  · exact .list

/-- Of the texts only the empty one counts as no parameters: `IsParameters (.text s) ↔ s = ""`. -/
theorem isParameters_text_iff {s : String} : IsParameters (.text s) ↔ s = "" := by
  constructor
  · rintro ⟨⟩
    rfl
  · rintro rfl
    exact .emptyText

/-- Of the bytes only the empty ones count as no parameters:
`IsParameters (.scalar (.bytes b)) ↔ b = []`. -/
theorem isParameters_bytes_iff {b : Bytes} : IsParameters (.scalar (.bytes b)) ↔ b = [] := by
  constructor
  · rintro ⟨⟩
    rfl
  · rintro rfl
    exact .emptyBytes

/-- Of the maps only the empty one counts as no parameters:
`IsParameters (.map entries) ↔ entries = []`. -/
theorem isParameters_map_iff {entries : List (Scalar × Tree)} :
    IsParameters (.map entries) ↔ entries = [] := by
  constructor
  · rintro ⟨⟩
    rfl
  · rintro rfl
    exact .emptyMap

/-- **A signature**: whatever counts as false, or a map. Its parameters and its result are checked
where these fields are there. -/
inductive IsSignature : Tree → Prop
  | falsy {tree : Tree} (h : tree.truthy = false) : IsSignature tree
  | map {entries : List (Scalar × Tree)}
      (parameters : ∀ given, under? "parameters" entries = some given → IsParameters given)
      (result : ∀ given, under? "return_type" entries = some given → IsType given) :
      IsSignature (.map entries)

/-- **What the body of an element of a kind holds itself.** -/
def HasBody (tree : Tree) : ElementKind → Prop
  | .global => IsConstant (tree.field "constant") ∧ ∃ type, tree.field? "type" = some type ∧ type.IsType
  | .enumValue => ∀ value, tree.field? "value" = some value → Converts .integer value
  | .function => IsSignature (tree.field "signature")
  | _ => True

/-- **The head of an element of a kind**, without what the element refers to. The name counts as
true, the one that is there or else the inherited one. -/
structure IsHead (inherited tree : Tree) (kind : ElementKind) : Prop where
  named : tree.field? "kind" = some (.text kind.name)
  name : (tree.nameOr inherited).truthy = true
  flags : IsFlags (tree.field "flags")
  body : tree.HasBody kind

/-- A tree that names a kind of a sort. -/
def IsOfSort (sort : InstanceSort) (tree : Tree) : Prop :=
  ∃ kind : ElementKind, tree.field? "kind" = some (.text kind.name) ∧ sort.admits kind = true

/-! ## Elements -/

section Links

variable (valid : Tree → Tree → Prop)

/-- **A member map**: nothing, or a map of valid elements, each of which inherits its key. -/
inductive IsMembers : Tree → Prop
  | null : IsMembers .null
  | map {entries : List (Scalar × Tree)} (each : ∀ entry ∈ entries, valid (.scalar entry.1) entry.2) :
      IsMembers (.map entries)

/-- **Instances** of a sort: whatever counts as false, or a list of valid elements, all of which
inherit the name of the prototype. -/
inductive IsInstances (sort : InstanceSort) : Tree → Tree → Prop
  | falsy {tree name : Tree} (h : tree.truthy = false) : IsInstances sort tree name
  | list {items : List Tree} {name : Tree} (each : ∀ item ∈ items, valid name item)
      (sorted : ∀ item ∈ items, item.IsOfSort sort) : IsInstances sort (.list items) name

/-- **A base**: nothing, or a valid class or interface, which inherits no name. -/
inductive IsBase : Tree → Prop
  | null : IsBase .null
  | element {tree : Tree} (base : valid .null tree) (sorted : tree.IsOfSort .classLike) : IsBase tree

/-- **What an element of a kind refers to** from its body. -/
inductive HasLinks : ElementKind → Tree → Tree → Prop
  | functionPrototype {name tree : Tree}
      (instances : IsInstances valid .function (tree.field "instances") name) :
      HasLinks .functionPrototype name tree
  | classPrototype {name tree : Tree}
      (instances : IsInstances valid .classLike (tree.field "instances") name) :
      HasLinks .classPrototype name tree
  | classLike {kind : ElementKind} {name tree : Tree}
      (sort : InstanceSort.classLike.admits kind = true) (base : IsBase valid (tree.field "base"))
      (statics : IsMembers valid (tree.field "static_members"))
      (members : IsMembers valid (tree.field "instance_members")) : HasLinks kind name tree
  | leaf {kind : ElementKind} {name tree : Tree}
      (leaf : kind ∈ [.global, .enumeration, .enumValue, .function, .nameSpace]) :
      HasLinks kind name tree

end Links

/-- **A valid element**, given the name that it inherits. -/
inductive IsElement : Tree → Tree → Prop
  | intro {inherited tree : Tree} {kind : ElementKind} (head : IsHead inherited tree kind)
      (members : IsMembers IsElement (tree.field "members"))
      (links : HasLinks IsElement kind (tree.nameOr inherited) tree) : IsElement inherited tree

/-- **A serialized graph**: a map whose exports count as false, or are a map of valid elements, each of
which inherits its key. -/
inductive IsGraph : Tree → Prop
  | empty {entries : List (Scalar × Tree)} (h : ((Tree.map entries).field "exports").truthy = false) :
      IsGraph (.map entries)
  | exports {entries exports : List (Scalar × Tree)}
      (given : under? "exports" entries = some (.map exports))
      (each : ∀ entry ∈ exports, IsElement (.scalar entry.1) entry.2) : IsGraph (.map entries)

end Tree

end ModuleSurface
