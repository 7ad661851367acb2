import ModuleSurface.Document.Number
import ModuleSurface.Element

/-! # What is wrong with a serialized graph

Each constructor of `FormatError` is one way in which a document fails to be an export graph, with
the value or the name at fault; `FormatError.message` is the sentence about it. -/

namespace ModuleSurface

/-- **Why a parameter of a signature was not read.** -/
inductive ParameterError
  /-- The parameters are of a type without items. -/
  | notIterable (typeName : String)
  /-- A parameter is of a type without fields. -/
  | notSubscriptable (typeName : String)
  /-- A parameter is a text. -/
  | fieldOfText
  /-- A parameter is a list. -/
  | fieldOfList
  /-- A parameter is a pair. -/
  | fieldOfPair
  /-- A parameter is a sequence of bytes. -/
  | fieldOfBytes
  /-- A parameter lacks a field. -/
  | missing (field : String)
deriving DecidableEq, Repr

/-- The words about a parameter. -/
def ParameterError.message : ParameterError → String
  | .notIterable typeName => s!"'{typeName}' object is not iterable"
  | .notSubscriptable typeName => s!"'{typeName}' object is not subscriptable"
  | .fieldOfText => "string indices must be integers, not 'str'"
  | .fieldOfList => "list indices must be integers or slices, not str"
  | .fieldOfPair => "tuple indices must be integers or slices, not str"
  | .fieldOfBytes => "byte indices must be integers or slices, not str"
  | .missing field => quoted field

/-- **Why a payload was not read**: its field is missing, or holds no number of the wanted sort. -/
inductive PayloadError
  | missing (field : String)
  | number (cause : NumberError)
deriving DecidableEq, Repr

/-- The words about a payload. -/
def PayloadError.message : PayloadError → String
  | .missing field => quoted field
  | .number cause => cause.message

/-- What the instances of a prototype, or a base, have to be. -/
inductive InstanceSort
  | function | classLike
deriving DecidableEq, Repr

namespace InstanceSort

/-- The word for a sort of instances. -/
def word : InstanceSort → String
  | .function => "function"
  | .classLike => "class"

/-- Whether elements of a kind are of a sort; interfaces count as classes. -/
def admits : InstanceSort → ElementKind → Bool
  | .function, .function => true
  | .classLike, .classType | .classLike, .interfaceType => true
  | _, _ => false

end InstanceSort

/-- **Why a document is not an export graph.** -/
inductive FormatError
  | rootNotMap
  | exportsNotMap (typeName : String)
  | memberMapNotMap (typeName : String)
  | elementNotMap (typeName : String)
  | unknownElementKind (value : Value)
  | nameless (kind : ElementKind)
  | flagsNotList (typeName : String)
  | unknownFlag (value : Value)
  | unsupportedType (value : Value)
  | unknownTypeKind (value : Value)
  | signatureNotMap (typeName : String)
  | malformedParameter (cause : ParameterError)
  | constantNotMap (name : Value)
  | unknownConstantKind (value : Value)
  | malformedConstant (name : Value) (cause : PayloadError)
  | typelessGlobal (name : Value)
  | malformedEnumValue (name : Value) (cause : NumberError)
  | instancesNotList (typeName : String)
  | wrongInstance (expected : InstanceSort) (kind : ElementKind) (name : Value)
deriving DecidableEq

/-- **The sentence about a fault** of a document; the store is that of the document. There is none
where the sentence would show an integer that is too long to be written. -/
def FormatError.message? (store : Store) : FormatError → Option String
  | .rootNotMap => some "Graph root must be a mapping"
  | .exportsNotMap typeName => some ("Exports must be a mapping, got " ++ typeName)
  | .memberMapNotMap typeName => some ("Member map must be a mapping, got " ++ typeName)
  | .elementNotMap typeName => some ("Element must be a mapping, got " ++ typeName)
  | .unknownElementKind value => (store.display? value).map ("Unknown element kind: " ++ ·)
  | .nameless kind => some s!"Element of kind {kind.name} has no name"
  | .flagsNotList typeName => some ("Flags must be a list, got " ++ typeName)
  | .unknownFlag value => (store.display? value).map ("Unknown flag: " ++ ·)
  | .unsupportedType value => (store.display? value).map ("Unsupported type value: " ++ ·)
  | .unknownTypeKind value => (store.display? value).map ("Unknown type kind: " ++ ·)
  | .signatureNotMap typeName => some ("Signature must be a mapping, got " ++ typeName)
  | .malformedParameter cause => some ("Malformed signature parameter: " ++ cause.message)
  | .constantNotMap name =>
    (store.inSentence? name).map fun name => s!"Constant of global '{name}' must be a mapping"
  | .unknownConstantKind value => (store.display? value).map ("Unknown constant kind: " ++ ·)
  | .malformedConstant name cause =>
    (store.inSentence? name).map fun name =>
      s!"Malformed constant of global '{name}': {cause.message}"
  | .typelessGlobal name =>
    (store.inSentence? name).map fun name => s!"Global '{name}' has no type"
  | .malformedEnumValue name cause =>
    (store.inSentence? name).map fun name =>
      s!"Malformed value of enum value '{name}': {cause.message}"
  | .instancesNotList typeName => some ("Instances must be a list, got " ++ typeName)
  | .wrongInstance expected kind name =>
    (store.inSentence? name).map fun name =>
      s!"Expected {expected.word} instance, got {kind.name} '{name}'"

/-- **Why reading a document as a graph stopped.** Besides the faults of the format there are
numbers that leave the range of their target. The bound on the nesting of elements is never met,
since elements nest at most as deep as the document has maps. -/
inductive DecodeError
  | format (cause : FormatError)
  | outOfRange (cause : NumberError)
  | nestedTooDeep
deriving DecidableEq

end ModuleSurface
