import ModuleSurface.Definitions.Build
import ModuleSurface.Equality

/-! # Sessions

In a session elements are made and changed one by one under names of their own, graphs export them,
and a builder that belongs to one of the graphs builds definitions step by step. All graphs of a
session share its elements, so a change of an element shows in every graph and in what the builder
does next. -/

namespace ModuleSurface

/-- **A builder**: its dialect, the graph that it belongs to, and the state of its build. -/
structure Builder where
  dialect : Dialect
  graph : Nat
  state : BuildState := {}

/-- The exports and the addressing width of one graph of a session. -/
structure Surface where
  exports : Members := []
  is64Bit : Bool := false

/-- **A session**: the elements with their names, in the order of their making, the graphs, of which
the last is the present one, and the builder. -/
structure Session where
  names : List (String × Handle) := []
  elements : Array Element := #[]
  earlier : Array Surface := #[]
  present : Surface := {}
  builder : Option Builder := none

/-- The member maps of an element that can be set. -/
inductive MemberField
  | members | staticMembers | instanceMembers
deriving DecidableEq, Repr

namespace Session

instance : Inhabited Session := ⟨{}⟩

/-- The element of a name. -/
def handle? (session : Session) (name : String) : Option Handle :=
  (session.names.find? fun entry => entry.1 == name).map (·.2)

/-- The name of an element. -/
def nameOf? (session : Session) (h : Handle) : Option String :=
  (session.names.find? fun entry => entry.2 == h).map (·.1)

/-- One of the graphs. -/
def surface (session : Session) (graph : Nat) : Surface :=
  session.earlier.getD graph session.present

/-- One of the graphs with the elements of the session. -/
def graphAt (session : Session) (graph : Nat) : Graph :=
  { elements := session.elements
    exports := (session.surface graph).exports
    is64Bit := (session.surface graph).is64Bit }

/-- The present graph. -/
def graph (session : Session) : Graph := session.graphAt session.earlier.size

/-- Starts a new graph without exports. -/
def startGraph (session : Session) (is64Bit : Bool) : Session :=
  { session with earlier := session.earlier.push session.present, present := { is64Bit } }

/-- Sets the addressing width of the present graph. -/
def setWidth (session : Session) (is64Bit : Bool) : Session :=
  { session with present := { session.present with is64Bit } }

/-- Makes an element. -/
def create (session : Session) (name : String) (element : Element) : Session :=
  { session with
    names := (session.names.filter fun entry => entry.1 != name) ++ [(name, session.elements.size)]
    elements := session.elements.push element }

/-- Changes an element. -/
def change (session : Session) (h : Handle) (update : Element → Element) : Session :=
  { session with elements := session.elements.modify h update }

/-- Changes what a class or an interface refers to; other bodies refer to nothing of the kind. -/
def changeLinks (update : ClassLinks → ClassLinks) (element : Element) : Element :=
  match element.body with
  | .classType links => { element with body := .classType (update links) }
  | .interfaceType links => { element with body := .interfaceType (update links) }
  | _ => element

/-- Sets a member map. -/
def link (session : Session) (h : Handle) (field : MemberField) (members : Option Members) :
    Session :=
  session.change h <|
    match field with
    | .members => fun element => { element with members }
    | .staticMembers => changeLinks fun links => { links with staticMembers := members }
    | .instanceMembers => changeLinks fun links => { links with instanceMembers := members }

/-- Sets the base of a class. -/
def setBase (session : Session) (h : Handle) (base : Option Handle) : Session :=
  session.change h (changeLinks fun links => { links with base })

/-- Sets the instances of a prototype. -/
def setInstances (session : Session) (h : Handle) (instances : List Handle) : Session :=
  session.change h fun element =>
    match element.body with
    | .functionPrototype _ => { element with body := .functionPrototype instances }
    | .classPrototype _ => { element with body := .classPrototype instances }
    | _ => element

/-- Sets the flags of an element. -/
def setFlags (session : Session) (h : Handle) (flags : Flags) : Session :=
  session.change h fun element => { element with flags }

/-- Exports an element from the present graph, under its own name where the given one is missing or
empty. A name that is no scalar exports nothing. -/
def publish (session : Session) (h : Handle) (name : Option String) : Session :=
  let key : Option Scalar := match name with
    | some "" | none =>
      match (session.graph.element h).name with
      | .scalar s => some s
      | _ => none
    | some name => some (.text name)
  match key with
  | some key =>
    let exports := Entries.put key h session.present.exports
    { session with present := { session.present with exports } }
  | none => session

/-- Starts a builder for the present graph. -/
def startBuilder (session : Session) (dialect : Dialect) : Session :=
  { session with builder := some { dialect, graph := session.earlier.size } }

/-- Does a step of the builder, and says what came of it. -/
def step {α : Type} (session : Session) (act : Graph → Dialect → Build α) :
    Session × Option (Except RenderError α) :=
  match session.builder with
  | none => (session, none)
  | some builder =>
    match (act (session.graphAt builder.graph) builder.dialect).run builder.state with
    | .ok a state => ({ session with builder := some { builder with state } }, some (.ok a))
    | .error cause state =>
      ({ session with builder := some { builder with state } }, some (.error cause))

/-- Builds the definitions. -/
def build (session : Session) : Session × Option (Except RenderError String) :=
  session.step fun graph dialect => graph.build dialect

/-- Visits one element. -/
def visit (session : Session) (h : Handle) : Session × Option (Except RenderError Unit) :=
  session.step fun graph dialect => graph.visitElement dialect h

/-- Marks one element as declared. -/
def mark (session : Session) (h : Handle) : Session × Option (Except RenderError Bool) :=
  session.step fun _ _ => Build.mark h

/-- Forgets which elements are declared. -/
def reset (session : Session) : Session × Option (Except RenderError Unit) :=
  session.step fun _ _ => modify fun state => { state with visited := [] }

end Session

end ModuleSurface
