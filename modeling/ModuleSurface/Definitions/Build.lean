import ModuleSurface.Definitions.Arrival
import ModuleSurface.Definitions.Log

/-! # Building definitions

Definitions are built by one walk through the exports of a graph. Every element is declared at most
once: the handles of the declared elements are kept, and an element whose handle is among them is
passed over, whether its declaration is complete or still being written. The two dialects share the
walk and differ in what a declaration writes and which members it goes on to. -/

namespace ModuleSurface

/-- **Why definitions were not built.** -/
inductive RenderError
  /-- An element that cannot be declared on its own was met. -/
  | unsupportedElement (kind : ElementKind) (name : Value)
  /-- A class- or function-typed value was met. -/
  | referenceType (spelling : String)
  /-- A kind without a spelling in the dialect was met. -/
  | unspelledKind (dialect : Dialect) (kind : PrimitiveKind)
  /-- A value without a type was met. -/
  | typeMissing
  /-- An element that is not of the sort to be declared was met. -/
  | wrongSort
  /-- A name that is no text was met. -/
  | notText
  /-- A payload was not written. -/
  | payload (cause : PayloadFault)
  /-- A log entry shows an integer that is too long to be written. -/
  | unwritableEntry
  /-- Declarations nest deeper than there are elements, which never happens. -/
  | nestedTooDeep
deriving DecidableEq

namespace RenderError

/-- **The sentence about a failure** that a graph can be blamed for; the other failures have none,
and neither has a sentence that would show an integer too long to be written. -/
def message? (store : Store) : RenderError → Option String
  | .unsupportedElement kind name =>
    (store.inSentence? name).map fun name =>
      s!"Cannot render element '{name}' of kind {kind.name}"
  | .referenceType spelling =>
    some s!"Reference-typed value '{spelling}' has no primitive spelling"
  | .unspelledKind dialect kind => some s!"No {dialect.title} spelling for type {kind.name}"
  | _ => none

end RenderError

/-- **The state of a build**: the declared elements in the order of their declarations, the text,
and the log. -/
structure BuildState where
  visited : List Handle := []
  text : IndentedText := {}
  log : List LogEntry := []

/-- A step of a build. A step that fails leaves the state as far as it got. -/
abbrev Build := EStateM RenderError BuildState

namespace Build

/-- Changes the text. -/
def onText (change : IndentedText → IndentedText) : Build Unit :=
  modify fun state => { state with text := change state.text }

/-- Adds fragments. -/
def push (fragments : List Fragment) : Build Unit := onText fun text => text.push fragments

/-- Adds the indentation. -/
def indent : Build Unit := onText IndentedText.indent

/-- Adds a line. -/
def line (fragments : List Fragment) : Build Unit := onText fun text => text.line fragments

/-- Opens a block. -/
def openBlock (header : List Fragment) : Build Unit := onText fun text => text.openBlock header

/-- Closes a block. -/
def closeBlock : Build Unit := onText fun text => text.closeBlock (some "")

/-- Logs an entry. -/
def log (entry : LogEntry) : Build Unit :=
  modify fun state => { state with log := state.log ++ [entry] }

/-- **Marking an element**: whether it is met for the first time. -/
def mark (h : Handle) : Build Bool := do
  let state ← get
  if h ∈ state.visited then return false
  else
    -- the order of the handles is that of the declarations
    set { state with visited := state.visited ++ [h] }
    return true

/-- A value, or the failure to have it. -/
def ofExcept {α : Type} : Except RenderError α → Build α
  | .ok a => pure a
  | .error cause => throw cause

/-- Does a step for every item, in order. -/
def each {α : Type} (step : α → Build Unit) : List α → Build Unit
  | [] => pure ()
  | a :: rest => do
    step a
    each step rest

/-- For no elements `each` does nothing. -/
@[simp] theorem each_nil {α : Type} (step : α → Build Unit) : each step [] = pure () := rfl

/-- For the first element `each` takes a step, and then goes on with the others. -/
@[simp] theorem each_cons {α : Type} (step : α → Build Unit) (a : α) (rest : List α) :
    each step (a :: rest) = (do step a; each step rest) := rfl

end Build

/-- **The spelling of a type** in a dialect, under an addressing width. -/
def Dialect.spellType (dialect : Dialect) (is64Bit : Bool) :
    Option ValueType → Except RenderError String
  | none => .error .typeMissing
  | some type =>
    if type.isReference then
      match type.spelling? with
      | some spelling => .error (.referenceType spelling)
      | none => .error .notText
    else
      -- a kind as wide as an address is spelled as the kind of that width
      let kind := type.kind.resolve is64Bit
      match dialect.spelling? kind with
      | some spelling => .ok spelling
      | none => .error (.unspelledKind dialect kind)

/-- The pieces of a parameter of a spelled type: the type stands before the name in WebIDL, and
behind it in TypeScript. -/
def Dialect.parameterPieces (dialect : Dialect) (spelled : String) (name : Fragment) :
    List Fragment :=
  match dialect with
  | .webidl => [some spelled, some " ", name]
  | .typescript => [name, some ": ", some spelled]

/-- The text of an enum value's payload. -/
def enumValueText (body : Body) : Except RenderError String :=
  match body with
  | .enumValue value => (integerText value).mapError .payload
  | _ => .error .wrongSort

/-- The text of a constant's payload. -/
def constantText (constant : Constant) : Except RenderError String :=
  (match constant.kind with
    | .integer => integerText constant.value
    | .float => floatText constant.value).mapError .payload

namespace Graph

/-- Whether the element of a handle is an enum value. -/
def isEnumValue (graph : Graph) (h : Handle) : Bool := (graph.element h).kind = .enumValue

/-- How a member is met: declared, skipped or refused. -/
abbrev Visitor := Handle → Build Unit

/-- A block with the declarations of members in it. -/
def memberBlock (visit : Visitor) (header : List Fragment) (members : List Handle) :
    Build Unit := do
  Build.openBlock header
  Build.each visit members
  Build.closeBlock

/-- The handles of a member map that are, or are not, enum values. -/
def otherMembers (graph : Graph) (members : Members) : List Handle :=
  (members.filter fun entry => !graph.isEnumValue entry.2).map (·.2)

/-- The entries of a member map that are enum values. -/
def enumValues (graph : Graph) (members : Members) : Members :=
  members.filter fun entry => graph.isEnumValue entry.2

/-- The parameters from a place on. -/
def declareParameters (graph : Graph) (dialect : Dialect) (signature : Signature) :
    Nat → List (Option ValueType) → Build Unit
  | _, [] => pure ()
  | place, type :: rest => do
    if place ≠ 0 then Build.push [some ", "]
    let spelled ← Build.ofExcept (dialect.spellType graph.is64Bit type)
    Build.push (dialect.parameterPieces spelled (signature.parameterName place).text?)
    graph.declareParameters dialect signature (place + 1) rest

/-! ## WebIDL -/

namespace WebIdl

/-- A global is an attribute of the module, or a constant with its payload. -/
def declareGlobal (graph : Graph) (element : Element) : Build Unit := do
  match element.body with
  | .global type constant =>
    Build.indent
    if element.flags.inlined then Build.push [some "const "]
    let spelled ← Build.ofExcept (Dialect.webidl.spellType graph.is64Bit type)
    Build.push [some spelled, some " ", element.name.text?]
    -- a constant without a payload is still written as one
    match element.flags.inlined, constant with
    | true, some constant =>
      let payload ← Build.ofExcept (constantText constant)
      Build.push [some " = ", some payload]
    | _, _ => pure ()
    Build.push [some ";\n"]
  | _ => throw .wrongSort

/-- An enum value is a constant with its payload, or a read-only attribute. -/
def declareEnumValue (graph : Graph) (entry : Scalar × Handle) : Build Unit := do
  let member := graph.element entry.2
  let key := (Value.scalar entry.1).text?
  -- the values are lines of their enum here and are not marked
  if member.flags.inlined then
    let payload ← Build.ofExcept (enumValueText member.body)
    Build.line [some "const unsigned long ", key, some " = ", some payload, some ";"]
  else Build.line [some "readonly unsigned long ", key, some ";"]

/-- An enum is an interface: its values first, then its other members. -/
def declareEnum (graph : Graph) (visit : Visitor) (element : Element) : Build Unit := do
  Build.openBlock [some "interface ", element.name.text?]
  Build.each (declareEnumValue graph) (graph.enumValues element.memberItems)
  Build.each visit (graph.otherMembers element.memberItems)
  Build.closeBlock

/-- A function is an operation; its members stand in an interface of the same name. -/
def declareFunction (graph : Graph) (visit : Visitor) (element : Element) : Build Unit := do
  match element.body with
  | .function signature =>
    Build.indent
    -- the result is spelled first, and so is its fault met first
    let result ← Build.ofExcept (Dialect.webidl.spellType graph.is64Bit signature.returnType)
    Build.push [some result, some " ", element.name.text?, some "("]
    graph.declareParameters .webidl signature 0 signature.parameterTypes
    Build.push [some ");\n"]
    if element.memberItems ≠ [] then
      memberBlock visit [some "interface ", element.name.text?] (element.memberItems.map (·.2))
  | _ => throw .wrongSort

/-- A class is an empty interface. -/
def declareClass (element : Element) : Build Unit := do
  Build.openBlock [some "interface ", element.name.text?]
  Build.closeBlock

/-- A namespace is an interface, also when it is empty. -/
def declareNameSpace (visit : Visitor) (element : Element) : Build Unit :=
  memberBlock visit [some "interface ", element.name.text?] (element.memberItems.map (·.2))

/-- **A declaration in WebIDL.** -/
def declare (graph : Graph) (visit : Visitor) (sort : DeclarationSort) (h : Handle) :
    Build Unit := do
  if ← Build.mark h then
    let element := graph.element h
    match sort with
    | .global => declareGlobal graph element
    | .enumeration => declareEnum graph visit element
    | .function => declareFunction graph visit element
    | .classType | .interfaceType => declareClass element
    | .nameSpace => declareNameSpace visit element

end WebIdl

/-! ## TypeScript -/

namespace TypeScript

/-- The members of an element in a namespace of its name; without members there is none. -/
def declareMembers (visit : Visitor) (element : Element) : Build Unit :=
  if element.memberItems = [] then pure ()
  else memberBlock visit [some "namespace ", element.name.text?] (element.memberItems.map (·.2))

/-- A global is a variable or a constant, with its members. -/
def declareGlobal (graph : Graph) (visit : Visitor) (element : Element) : Build Unit := do
  match element.body with
  | .global type _ =>
    Build.indent
    if element.flags.inlined then Build.push [some "const "]
    let spelled ← Build.ofExcept (Dialect.typescript.spellType graph.is64Bit type)
    Build.push [element.name.text?, some ": ", some spelled, some ";\n"]
    declareMembers visit element
  | _ => throw .wrongSort

/-- An enum value is a line of its enum, with its payload if that is a constant. It counts as
declared. -/
def declareEnumValue (graph : Graph) (entry : Scalar × Handle) : Build Unit := do
  let member := graph.element entry.2
  -- the line is written also for a value that was met in another enum before
  let _ ← Build.mark entry.2
  Build.indent
  Build.push [(Value.scalar entry.1).text?]
  if member.flags.inlined then
    let payload ← Build.ofExcept (enumValueText member.body)
    Build.push [some " = ", some payload]
  Build.push [some ",\n"]

/-- An enum lists its values; its other members stand in a namespace of the same name. -/
def declareEnum (graph : Graph) (visit : Visitor) (element : Element) : Build Unit := do
  Build.openBlock [some "enum ", element.name.text?]
  Build.each (declareEnumValue graph) (graph.enumValues element.memberItems)
  Build.closeBlock
  let others := graph.otherMembers element.memberItems
  if others ≠ [] then memberBlock visit [some "namespace ", element.name.text?] others

/-- A function with its members. -/
def declareFunction (graph : Graph) (visit : Visitor) (element : Element) : Build Unit := do
  match element.body with
  | .function signature =>
    Build.indent
    Build.push [some "function ", element.name.text?, some "("]
    graph.declareParameters .typescript signature 0 signature.parameterTypes
    -- the result is spelled behind the parameters, so their faults come first
    let result ← Build.ofExcept (Dialect.typescript.spellType graph.is64Bit signature.returnType)
    Build.push [some "): ", some result, some ";\n"]
    declareMembers visit element
  | _ => throw .wrongSort

/-- The words in front of the name of a class. -/
def classWords (element : Element) : List Fragment :=
  if element.kind = .interfaceType then [some "interface "]
  else if element.flags.abstract then [some "abstract ", some "class "]
  else [some "class "]

/-- The words that name the base of a class. -/
def baseWords (graph : Graph) : Option Handle → List Fragment
  | none => []
  | some base => [some " extends ", (graph.element base).name.text?]

/-- A class is an empty block that names its base. -/
def declareClass (graph : Graph) (element : Element) : Build Unit := do
  match element.body.classLinks? with
  | some links =>
    Build.openBlock (classWords element ++ [element.name.text?] ++ baseWords graph links.base)
    Build.closeBlock
  | none => throw .wrongSort

/-- **A declaration in TypeScript.** A namespace is its members. -/
def declare (graph : Graph) (visit : Visitor) (sort : DeclarationSort) (h : Handle) :
    Build Unit := do
  if ← Build.mark h then
    let element := graph.element h
    match sort with
    | .global => declareGlobal graph visit element
    | .enumeration => declareEnum graph visit element
    | .function => declareFunction graph visit element
    | .classType | .interfaceType => declareClass graph element
    | .nameSpace => declareMembers visit element

end TypeScript

/-! ## The walk -/

/-- A declaration in a dialect. -/
def declare (graph : Graph) (dialect : Dialect) (visit : Visitor) (sort : DeclarationSort)
    (h : Handle) : Build Unit :=
  match dialect with
  | .webidl => WebIdl.declare graph visit sort h
  | .typescript => TypeScript.declare graph visit sort h

/-- What a walk does on an arrival. -/
def meet (graph : Graph) (declare : DeclarationSort → Handle → Build Unit) : Arrival → Build Unit
  | .declare sort h => declare sort h
  | .skip h => Build.log (.skipping (graph.element h).kind (graph.element h).name)

/-- **Visiting an element**: all its arrivals, in order. Members of declared elements are visited
in the same way; `fuel` bounds how deep that nests. -/
def visit (graph : Graph) (dialect : Dialect) : Nat → Visitor
  | 0, _ => throw .nestedTooDeep
  | fuel + 1, h =>
    match graph.arrivals? h with
    -- refused before it is marked
    | none => throw (.unsupportedElement (graph.element h).kind (graph.element h).name)
    | some arrivals =>
      Build.each (graph.meet (graph.declare dialect (graph.visit dialect fuel))) arrivals

/-- Visiting with a bound that is never met: a declared element is marked before its members are
visited, so declarations nest at most as deep as there are elements. -/
def visitElement (graph : Graph) (dialect : Dialect) (h : Handle) : Build Unit :=
  graph.visit dialect (graph.size + 1) h

/-- The walk through the exports. -/
def walk (graph : Graph) (dialect : Dialect) : Build Unit :=
  Build.each (fun entry => do
    Build.log (.walking entry.1 (graph.element entry.2).kind)
    graph.visitElement dialect entry.2) graph.exports

/-- **Building the definitions** from an empty text and with nothing declared; what was built before
does not matter. -/
def build (graph : Graph) (dialect : Dialect) : Build String := do
  modify fun state => { state with visited := [], text := {} }
  -- the log goes on from one build to the next, the rest starts afresh
  Build.openBlock [some dialect.moduleHeader, some Dialect.moduleName]
  Build.each (fun pair =>
    Build.line [some "type ", some pair.1, some " = ", some pair.2, some ";"]) dialect.aliases
  graph.walk dialect
  Build.closeBlock
  let state ← get
  Build.log (.built dialect state.text.fragments.size state.visited.length)
  match state.text.joined? with
  | some text => return text
  | none => throw .notText

/-- What a build gives and what it logs. -/
structure Rendering where
  result : Except RenderError String
  log : List LogEntry

/-- **A rendering that is listened to**: the lines of its log and its result. An entry that cannot
be written stops it. -/
def Rendering.heard (rendering : Rendering) (store : Store) :
    Except RenderError String × List String :=
  let lines := rendering.log.map (·.line? store)
  (if lines.all Option.isSome then rendering.result else .error .unwritableEntry,
    (lines.takeWhile Option.isSome).filterMap id)

/-- **The definitions of a graph** with the log of building them. -/
def renderLogged (graph : Graph) (dialect : Dialect) : Rendering :=
  match (graph.build dialect).run {} with
  | .ok text state => ⟨.ok text, state.log⟩
  | .error cause state => ⟨.error cause, state.log⟩

/-- **The definitions of a graph.** -/
def render (graph : Graph) (dialect : Dialect) : Except RenderError String :=
  (graph.renderLogged dialect).result

/-! ## Walking without declaring -/

/-- What a bare walk through the exports asks for, what it logs, and whether it got through. -/
structure WalkRecord where
  calls : List (DeclarationSort × Handle) := []
  log : List LogEntry := []
  failure : Option RenderError := none

namespace WalkRecord

/-- The record of a walk that stops for a reason, unless it has stopped before. -/
def stop (record : WalkRecord) (cause : RenderError) : WalkRecord :=
  { record with failure := record.failure.getD cause }

/-- The record with one more call. -/
def call (record : WalkRecord) (sort : DeclarationSort) (h : Handle) : WalkRecord :=
  if record.failure.isSome then record else { record with calls := record.calls ++ [(sort, h)] }

/-- The record with one more log entry; one that cannot be written stops the walk. -/
def note (record : WalkRecord) (store : Store) (entry : LogEntry) : WalkRecord :=
  if record.failure.isSome then record
  else if (entry.line? store).isNone then record.stop .unwritableEntry
  else { record with log := record.log ++ [entry] }

end WalkRecord

/-- One arrival of a bare walk. -/
def recordArrival (graph : Graph) (record : WalkRecord) : Arrival → WalkRecord
  | .declare sort h => record.call sort h
  | .skip h => record.note graph.store (.skipping (graph.element h).kind (graph.element h).name)

/-- One export on a bare walk, which declares nothing and visits no members. The walk stops at the
first element that cannot be declared on its own. -/
def recordExport (graph : Graph) (record : WalkRecord) (entry : Scalar × Handle) : WalkRecord :=
  let element := graph.element entry.2
  let record := record.note graph.store (.walking entry.1 element.kind)
  match graph.arrivals? entry.2 with
  | none => record.stop (.unsupportedElement element.kind element.name)
  | some arrivals => arrivals.foldl graph.recordArrival record

/-- **A bare walk** through the exports of a graph. -/
def recordWalk (graph : Graph) : WalkRecord := graph.exports.foldl graph.recordExport {}

end Graph

end ModuleSurface
