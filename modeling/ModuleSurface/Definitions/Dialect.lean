import ModuleSurface.Document.Number
import ModuleSurface.Double.Layout
import ModuleSurface.IndentedText
import ModuleSurface.ValueType

/-! # The two dialects of definitions

Definitions are written as a WebIDL interface or as an ambient TypeScript module. The dialects
differ in how they spell the primitive kinds, in what stands before the first declaration, and in
the declarations themselves; numbers are written alike. -/

namespace ModuleSurface

/-- **The dialects** of definitions. -/
inductive Dialect
  | webidl | typescript
deriving DecidableEq, Repr

namespace Dialect

/-- The name of a dialect on the command line. -/
def name : Dialect → String
  | .webidl => "webidl"
  | .typescript => "typescript"

/-- The name of a dialect in a sentence. -/
def title : Dialect → String
  | .webidl => "WebIDL"
  | .typescript => "TypeScript"

/-- All dialects, in the order in which they are offered. -/
def all : List Dialect := [.webidl, .typescript]

/-- The dialect of a name. -/
def ofName? (name : String) : Option Dialect := all.find? fun dialect => dialect.name == name

/-- Reading the name of a dialect gives the dialect: `ofName? dialect.name = some dialect`. -/
@[simp] theorem ofName?_name (dialect : Dialect) : ofName? dialect.name = some dialect := by
  cases dialect <;> decide

/-- **How a kind is spelled** in a dialect. Kinds of pointer size are resolved before they are
spelled, and vectors have no spelling. -/
def spelling? : Dialect → PrimitiveKind → Option String
  | .webidl, .i8 => some "byte"
  | .webidl, .i16 => some "short"
  | .webidl, .i32 => some "long"
  | .webidl, .i64 => some "long long"
  | .webidl, .u8 => some "octet"
  | .webidl, .u16 => some "unsigned short"
  | .webidl, .u32 => some "unsigned long"
  | .webidl, .u64 => some "unsigned long long"
  | .webidl, .bool => some "boolean"
  | .webidl, .f32 => some "unrestricted float"
  | .webidl, .f64 => some "unrestricted double"
  | .typescript, .i8 => some "i8"
  | .typescript, .i16 => some "i16"
  | .typescript, .i32 => some "i32"
  | .typescript, .i64 => some "I64"
  | .typescript, .u8 => some "u8"
  | .typescript, .u16 => some "u16"
  | .typescript, .u32 => some "u32"
  | .typescript, .u64 => some "U64"
  | .typescript, .bool => some "bool"
  | .typescript, .f32 => some "f32"
  | .typescript, .f64 => some "f64"
  | _, .void => some "void"
  | _, .isize | _, .usize | _, .v128 => none

/-- The two dialects spell the same kinds: `webidl.spelling?` is defined where
`typescript.spelling?` is. -/
theorem isSome_spelling? (kind : PrimitiveKind) :
    (webidl.spelling? kind).isSome = (typescript.spelling? kind).isSome := by
  cases kind <;> rfl

/-- The name of the module in the definitions. -/
def moduleName : String := "ASModule"

/-- The word that the header of the module starts with. -/
def moduleHeader : Dialect → String
  | .webidl => "interface "
  | .typescript => "declare module "

/-- The aliases of the primitive types that stand before the first declaration. -/
def aliases : Dialect → List (String × String)
  | .webidl => []
  | .typescript =>
    [("i8", "number"), ("i16", "number"), ("i32", "number"), ("u8", "number"), ("u16", "number"),
      ("u32", "number"), ("f32", "number"), ("f64", "number"), ("bool", "any")]

end Dialect

/-! ## Numbers -/

/-- **Why a payload was not written.** -/
inductive PayloadFault
  /-- The payload is no number of the wanted sort. -/
  | conversion (cause : NumberError)
  /-- The integer has more digits than are written. -/
  | integerTooLong
deriving DecidableEq, Repr

/-- **An integer in definitions**: its signed decimal. -/
def integerText (payload : Scalar) : Except PayloadFault String :=
  match payload.toInt with
  | .error cause => .error (.conversion cause)
  | .ok n =>
    match Numeral.intText? n with
    | some text => .ok text
    | none => .error .integerTooLong

/-- **Numbers in definitions**: positional for exponents from -6 to 20, whole numbers without a
point, exponents signed and not padded, both zeros alike. -/
def definitionsLayout : NumberLayout where
  plainFrom := -6
  plainBelow := 21
  pointZero := false
  mantissaPointZero := false
  exponentWidth := 1
  zeroText := "0"
  negativeZeroText := "0"
  nanText := "NaN"
  infinityText := "Infinity"
  negativeInfinityText := "-Infinity"

/-- **A double in definitions.** -/
def floatText (payload : Scalar) : Except PayloadFault String :=
  match payload.toDouble with
  | .error cause => .error (.conversion cause)
  | .ok x => .ok (definitionsLayout.render x)

/-- A double is laid out by `definitionsLayout`. -/
@[simp] theorem floatText_float (x : Double) :
    floatText (.float x) = .ok (definitionsLayout.render x) := rfl

end ModuleSurface
