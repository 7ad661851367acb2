import ModuleSurface.Document

/-! # Types of values that cross the module boundary

Every global, parameter and result has a type: a primitive kind, and for values that refer to a
class or to a function the reference as well. Kinds of pointer size have no width of their own; the
module's addressing width gives them one. -/

namespace ModuleSurface

/-- **The primitive kinds** of a compiled module. -/
inductive PrimitiveKind
  | i8 | i16 | i32 | i64 | isize
  | u8 | u16 | u32 | u64 | usize
  | bool | f32 | f64 | v128 | void
deriving DecidableEq, Repr

namespace PrimitiveKind

/-- The name of a kind in a serialized graph. -/
def name : PrimitiveKind → String
  | .i8 => "i8"
  | .i16 => "i16"
  | .i32 => "i32"
  | .i64 => "i64"
  | .isize => "isize"
  | .u8 => "u8"
  | .u16 => "u16"
  | .u32 => "u32"
  | .u64 => "u64"
  | .usize => "usize"
  | .bool => "bool"
  | .f32 => "f32"
  | .f64 => "f64"
  | .v128 => "v128"
  | .void => "void"

/-- All kinds, in the order in which they are listed. -/
def all : List PrimitiveKind :=
  [.i8, .i16, .i32, .i64, .isize, .u8, .u16, .u32, .u64, .usize, .bool, .f32, .f64, .v128, .void]

/-- The kind of a name. -/
def ofName? (name : String) : Option PrimitiveKind := all.find? fun kind => kind.name == name

/-- Reading the name of a kind gives the kind: `ofName? kind.name = some kind`. -/
@[simp] theorem ofName?_name (kind : PrimitiveKind) : ofName? kind.name = some kind := by
  cases kind <;> decide

/-- A name that is read is the name of what is read. -/
theorem name_of_ofName? {name : String} {kind : PrimitiveKind} (h : ofName? name = some kind) :
    kind.name = name := by
  simpa using List.find?_some h

/-- **Resolution**: the kinds of pointer size become the kinds of 32 or 64 bits, and every other
kind stays. -/
def resolve (is64Bit : Bool) : PrimitiveKind → PrimitiveKind
  | .isize => if is64Bit then .i64 else .i32
  | .usize => if is64Bit then .u64 else .u32
  | kind => kind

/-- Resolving leaves no kind of pointer size, so `resolve` does nothing the second time. -/
@[simp] theorem resolve_resolve (first second : Bool) (kind : PrimitiveKind) :
    (kind.resolve first).resolve second = kind.resolve first := by
  cases kind <;> cases first <;> rfl

end PrimitiveKind

/-- **A type**: a kind and the references that tell class- and function-typed values from plain
integers of the same kind. -/
structure ValueType where
  kind : PrimitiveKind
  classReference : Option Value := none
  signatureReference : Option Value := none
deriving DecidableEq

namespace ValueType

/-- The type of plain values of a kind. -/
def plain (kind : PrimitiveKind) : ValueType := ⟨kind, none, none⟩

/-- Whether the type is that of class- or function-typed values. -/
def isReference (type : ValueType) : Bool :=
  type.classReference.isSome || type.signatureReference.isSome

/-- A plain kind is no reference: `(plain kind).isReference = false`. -/
@[simp] theorem isReference_plain (kind : PrimitiveKind) : (plain kind).isReference = false := rfl

/-- **How a type is spelled in a message**: by its class, else by its signature, else by its kind.
A reference that is no text spells nothing. -/
def spelling? (type : ValueType) : Option String :=
  match type.classReference, type.signatureReference with
  | some reference, _ => reference.text?
  | none, some reference => reference.text?
  | none, none => some type.kind.name

/-- A plain kind is spelled by its name: `(plain kind).spelling? = some kind.name`. -/
@[simp] theorem spelling?_plain (kind : PrimitiveKind) : (plain kind).spelling? = some kind.name :=
  rfl

end ValueType

end ModuleSurface
