import ModuleSurface.Schema.FormatError

/-! # Parts of an element

How the types, flags, signatures, constants and enum values of a serialized element are read, and
how they are written. Reading goes by the store of the document; writing adds to a store. -/

namespace ModuleSurface

/-- A fault of the format. -/
def refuse {α : Type} (cause : FormatError) : Except DecodeError α := .error (.format cause)

namespace Store

/-! ## Types -/

/-- The primitive kind that a value names. -/
def readTypeKind (v : Value) : Except DecodeError PrimitiveKind :=
  match v.text?.bind PrimitiveKind.ofName? with
  | some kind => .ok kind
  | none => refuse (.unknownTypeKind v)

/-- **Reading a type**: nothing, the name of a kind, or a map with a kind and references. -/
def readType (store : Store) : Value → Except DecodeError (Option ValueType)
  | .scalar .null => .ok none
  | .scalar (.text s) => do
    return some (.plain (← readTypeKind (.text s)))
  | .map ref => do
    let entries := store.entries ref
    let kind ← readTypeKind (entries.field "kind")
    return some ⟨kind, (entries.field "class").nonNull?, (entries.field "signature").nonNull?⟩
  | v => refuse (.unsupportedType v)

/-- **Writing a type.** Plain types are the name of their kind. -/
def writeType (store : Store) : Option ValueType → Store × Value
  | none => (store, .null)
  | some type =>
    if type.isReference then
      store.addMap
        ([(.text "kind", .text type.kind.name)]
          ++ type.classReference.toList.map (fun v => (.text "class", v))
          ++ type.signatureReference.toList.map (fun v => (.text "signature", v)))
    else (store, .text type.kind.name)

/-! ## Flags -/

/-- The flags of a list of names, in any order and with repetitions. -/
def readFlagNames : List Value → Flags → Except DecodeError Flags
  | [], flags => .ok flags
  | v :: rest, flags =>
    match v.text?.bind Flags.ofName? with
    | some flag => readFlagNames rest (flags.union flag)
    | none => refuse (.unknownFlag v)

/-- **Reading flags**: nothing, or a list of names. -/
def readFlags (store : Store) : Value → Except DecodeError Flags
  | .scalar .null => .ok .none
  | .list ref => readFlagNames (store.items ref) .none
  | v => refuse (.flagsNotList v.typeName)

/-- **Writing flags** as the list of their names. -/
def writeFlags (store : Store) (flags : Flags) : Store × Value :=
  store.addList (flags.names.map .text)

/-! ## Signatures -/

/-- The items that a value goes through: those of a list or a pair, the keys of a map, the members
of a set, the characters of a text, and bytes as numbers. -/
def iterate (store : Store) : Value → Except ParameterError (List Value)
  | .list ref | .pair ref => .ok (store.items ref)
  | .map ref | .set ref => .ok ((store.entries ref).map fun entry => .scalar entry.1)
  | .scalar (.text s) => .ok (s.toList.map fun c => .text (String.singleton c))
  | .scalar (.bytes b) => .ok (b.map fun byte => .int byte.toNat)
  | v => .error (.notIterable v.fullTypeName)

/-- A field of a parameter. -/
def parameterField (store : Store) (name : String) : Value → Except ParameterError Value
  | .map ref =>
    match (store.entries ref).field? name with
    | some v => .ok v
    | none => .error (.missing name)
  | .list _ => .error .fieldOfList
  | .pair _ => .error .fieldOfPair
  | .scalar (.text _) => .error .fieldOfText
  | .scalar (.bytes _) => .error .fieldOfBytes
  | v => .error (.notSubscriptable v.fullTypeName)

/-- A fault of a parameter as a fault of the format. -/
def parameter {α : Type} : Except ParameterError α → Except DecodeError α
  | .ok a => .ok a
  | .error cause => refuse (.malformedParameter cause)

/-- **Reading a signature.** All types are read before the first name, and the result comes last. A
missing signature, and every value that counts as false, is the empty one. -/
def readSignature (store : Store) (v : Value) : Except DecodeError Signature :=
  if !store.truthy v then .ok {}
  else
    match v with
    | .map ref => do
      let entries := store.entries ref
      let parameters ← match entries.field? "parameters" with
        | some given => parameter (store.iterate given)
        | none => .ok []
      let types ← parameters.mapM fun p => do
        store.readType (← parameter (store.parameterField "type" p))
      -- the types have been gone through once, so a fault of a type is told before one of a name
      let names ← parameters.mapM fun p => parameter (store.parameterField "name" p)
      let result ← store.readType ((entries.field? "return_type").getD (.text "void"))
      return ⟨types, names, result⟩
    | v => refuse (.signatureNotMap v.typeName)

/-- The maps of parameters, one for each type. -/
def writeParameters (store : Store) : List (Value × Option ValueType) → Store × List Value
  | [] => (store, [])
  | (name, type) :: rest =>
    let (store, type) := store.writeType type
    let (store, first) := store.addMap [(.text "name", name), (.text "type", type)]
    let (store, others) := store.writeParameters rest
    (store, first :: others)

/-- **Writing a signature**, with a name for every parameter. -/
def writeSignature (store : Store) (signature : Signature) : Store × Value :=
  let (store, maps) := store.writeParameters (signature.names.zip signature.parameterTypes)
  let (store, parameters) := store.addList maps
  let (store, result) := store.writeType signature.returnType
  store.addMap [(.text "parameters", parameters), (.text "return_type", result)]

/-! ## Payloads -/

/-- A payload that is a number of a sort. -/
def readPayload (kind : ConstantKind) (v : Value) : Except NumberError Scalar :=
  match kind with
  | .integer => v.toInt.map .int
  | .float => v.toDouble.map .float

/-- **Reading a constant** of the global with the given name: nothing, or a map with a sort and a
value. A number out of range is no fault of the format. -/
def readConstant (store : Store) (name : Value) (v : Value) :
    Except DecodeError (Option Constant) :=
  if v.isNull then .ok none
  else
    match v with
    | .map ref => do
      let entries := store.entries ref
      let sort := (entries.field? "kind").getD (.text ConstantKind.integer.name)
      match sort.text?.bind ConstantKind.ofName? with
      | none => refuse (.unknownConstantKind sort)
      | some kind =>
        match entries.field? "value" with
        | none => refuse (.malformedConstant name (.missing "value"))
        | some payload =>
          match readPayload kind payload with
          | .ok value => return some ⟨kind, value⟩
          | .error cause =>
            -- a number out of range is an error of arithmetic, not of the format
            if cause.isOverflow then .error (.outOfRange cause)
            else refuse (.malformedConstant name (.number cause))
    | _ => refuse (.constantNotMap name)

/-- **Writing a constant.** -/
def writeConstant (store : Store) (constant : Constant) : Store × Value :=
  store.addMap [(.text "kind", .text constant.kind.name), (.text "value", .scalar constant.value)]

/-- **Reading the payload** of the enum value with the given name; a missing one is zero. -/
def readEnumValue (name : Value) (v : Option Value) : Except DecodeError Scalar :=
  match (v.getD (.int 0)).toInt with
  | .ok n => .ok (.int n)
  | .error cause =>
    if cause.isOverflow then .error (.outOfRange cause) else refuse (.malformedEnumValue name cause)

/-- The null is read as no type: `store.readType .null = .ok none`. -/
@[simp] theorem readType_null (store : Store) : store.readType .null = .ok none := rfl

/-- The null is read as no flags: `store.readFlags .null = .ok .none`. -/
@[simp] theorem readFlags_null (store : Store) : store.readFlags .null = .ok .none := rfl

/-- The null is read as the empty signature: `store.readSignature .null = .ok {}`. -/
@[simp] theorem readSignature_null (store : Store) : store.readSignature .null = .ok {} := rfl

/-- The null is read as no constant, whatever the element is named:
`store.readConstant name .null = .ok none`. -/
@[simp] theorem readConstant_null (store : Store) (name : Value) :
    store.readConstant name .null = .ok none := rfl

end Store

end ModuleSurface
