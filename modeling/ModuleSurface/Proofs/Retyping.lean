import ModuleSurface.Proofs.Likeness
import ModuleSurface.Proofs.Walk

/-! # Other types, the same definitions

The types of an element and the names of its parameters are asked for where the element is declared,
and nowhere else: the walk, the log and the other words do not depend on them. So a graph whose
elements are given other types and other names of parameters is built in the same steps, as long as
what is declared of them is written alike. This holds of every step, whatever state it starts from and
whatever the graph is like.

* **`Element.Retyped`** — an element with other types or another signature.
* **`Graph.Retypes`** — a graph whose elements are those of another one, retyped.
* **`Graph.TypedAlike`** — the types of an element are written alike in a dialect.
* **`Graph.Retypes.build`** — builds are the same where what is declared is typed alike. -/

namespace ModuleSurface

/-! ## Retyped elements -/

/-- **Two bodies differ in types and signatures only**, and those are related. -/
inductive Body.Retyped (types : Option ValueType → Option ValueType → Prop)
    (signatures : Signature → Signature → Prop) (body body' : Body) : Prop
  | global (type type' : Option ValueType) (constant : Option Constant)
      (eq : body = .global type constant) (eq' : body' = .global type' constant)
      (related : types type type')
  | function (signature signature' : Signature) (eq : body = .function signature)
      (eq' : body' = .function signature') (related : signatures signature signature')
  | untyped (eq : body' = body) (global : ∀ type constant, body ≠ .global type constant)
      (function : ∀ signature, body ≠ .function signature)

/-- What is read of a body without its type or signature is the same: `read body' = read body`. -/
theorem Body.Retyped.congr {types : Option ValueType → Option ValueType → Prop}
    {signatures : Signature → Signature → Prop} {body body' : Body}
    (h : Body.Retyped types signatures body body') {α : Type} (read : Body → α)
    (global : ∀ type type' constant, read (.global type' constant) = read (.global type constant))
    (function : ∀ signature signature', read (.function signature') = read (.function signature)) :
    read body' = read body := by
  cases h with
  | global type type' constant eq eq' => rw [eq, eq', global type type' constant]
  | function signature signature' eq eq' => rw [eq, eq', function signature signature']
  | untyped eq => rw [eq]

/-- **Two elements differ in types and signatures only.** -/
structure Element.Retyped (element element' : Element) : Prop where
  name : element'.name = element.name
  flags : element'.flags = element.flags
  members : element'.members = element.members
  body : Body.Retyped (fun _ _ => True) (fun _ _ => True) element.body element'.body

namespace Element.Retyped

variable {element element' : Element}

/-- An element and its retyping are compiled together:
`element'.isCompiled = element.isCompiled`. -/
theorem isCompiled (h : element.Retyped element') : element'.isCompiled = element.isCompiled := by
  rw [Element.isCompiled, Element.isCompiled, h.flags]

/-- An element and its retyping have the same `memberItems`. -/
theorem memberItems (h : element.Retyped element') : element'.memberItems = element.memberItems := by
  rw [Element.memberItems, Element.memberItems, h.members]

/-- An element and its retyping are of one `kind`. -/
theorem kind (h : element.Retyped element') : element'.kind = element.kind :=
  h.body.congr Body.kind (fun _ _ _ => rfl) fun _ _ => rfl

/-- Classes are not retyped: their `classLinks?` are the same. -/
theorem classLinks? (h : element.Retyped element') :
    element'.body.classLinks? = element.body.classLinks? :=
  h.body.congr Body.classLinks? (fun _ _ _ => rfl) fun _ _ => rfl

/-- Payloads are not retyped: the `enumValueText` is the same. -/
theorem enumValueText (h : element.Retyped element') :
    ModuleSurface.enumValueText element'.body = ModuleSurface.enumValueText element.body :=
  h.body.congr ModuleSurface.enumValueText (fun _ _ _ => rfl) fun _ _ => rfl

end Element.Retyped

namespace Graph

/-- **A graph is another one retyped**: it has the same exports, and elements that differ in types and
signatures only. -/
structure Retypes (graph copy : Graph) : Prop where
  element (h : Handle) : (graph.element h).Retyped (copy.element h)
  exports : copy.exports = graph.exports
  size : copy.size = graph.size

/-- **An element is typed alike in two graphs**: a type is spelled alike, and a signature looks
alike. -/
def TypedAlike (dialect : Dialect) (graph copy : Graph) (h : Handle) : Prop :=
  Body.Retyped (SpelledAlike dialect graph copy) (SameSignature dialect graph copy)
    (graph.element h).body (copy.element h).body

/-! ## Steps that are the same -/

/-- Steps for the items of a list are the same when each of them is: `each` depends on the steps for
its items only. -/
theorem each_congr {α : Type} {step step' : α → Build Unit} {items : List α}
    (h : ∀ a ∈ items, step' a = step a) : Build.each step' items = Build.each step items := by
  induction items with
  | nil => rfl
  | cons a items ih =>
    rw [List.forall_mem_cons] at h
    rw [Build.each_cons, Build.each_cons, h.1, ih h.2]

/-- A `memberBlock` is the same when each of its members is visited in the same way. -/
theorem memberBlock_congr {visit visit' : Visitor} {header : List Fragment} {members : List Handle}
    (h : ∀ m ∈ members, visit' m = visit m) :
    memberBlock visit' header members = memberBlock visit header members := by
  rw [memberBlock, memberBlock, each_congr h]

variable {graph copy : Graph} {dialect : Dialect} {h : Handle}

/-- The elements of a graph whose elements are changed by a function: what lies outside of the graph
stays the default one. -/
theorem element_map {change : Element → Element} (hdefault : change default = default) (graph : Graph)
    (h : Handle) :
    ({ graph with elements := graph.elements.map change } : Graph).element h
      = change (graph.element h) := by
  show (graph.elements.map change).getD h default = change (graph.elements.getD h default)
  simp only [Array.getD_eq_getD_getElem?, Array.getElem?_map]
  cases graph.elements[h]? with
  | none => exact hdefault.symm
  | some element => rfl

/-- Parameters are declared alike by types that are spelled alike, under names that are texts
alike. -/
theorem declareParameters_congr {signature signature' : Signature}
    (hnames : ∀ place < signature.parameterTypes.length,
      (signature'.parameterName place).text? = (signature.parameterName place).text?)
    {types types' : List (Option ValueType)}
    (htypes : List.Forall₂ (SpelledAlike dialect graph copy) types types') (place : Nat)
    (hplace : place + types.length ≤ signature.parameterTypes.length) :
    copy.declareParameters dialect signature' place types'
      = graph.declareParameters dialect signature place types := by
  induction htypes generalizing place with
  | nil => rfl
  | cons hfirst _ ih =>
    rw [List.length_cons] at hplace
    rw [declareParameters, declareParameters, hfirst, ih (place + 1) (by omega),
      hnames place (by omega)]

/-- A signature and one that looks alike declare the same parameters by `declareParameters`. -/
theorem SameSignature.declareParameters {signature signature' : Signature}
    (halike : SameSignature dialect graph copy signature signature') :
    copy.declareParameters dialect signature' 0 signature'.parameterTypes
      = graph.declareParameters dialect signature 0 signature.parameterTypes :=
  declareParameters_congr (fun _ => halike.parameterName) halike.parameters 0 (by omega)

namespace Retypes

/-- A retyped graph has enum values at the same handles:
`copy.isEnumValue h = graph.isEnumValue h`. -/
theorem isEnumValue (hr : Retypes graph copy) (h : Handle) :
    copy.isEnumValue h = graph.isEnumValue h := by
  rw [Graph.isEnumValue, (hr.element h).kind, Graph.isEnumValue]

/-- The members that are no enum values, `otherMembers`, are the same. -/
theorem otherMembers (hr : Retypes graph copy) (members : Members) :
    copy.otherMembers members = graph.otherMembers members := by
  simp only [Graph.otherMembers, hr.isEnumValue]

/-- The entries of enum values, `enumValues`, are the same. -/
theorem enumValues (hr : Retypes graph copy) (members : Members) :
    copy.enumValues members = graph.enumValues members := by
  simp only [Graph.enumValues, hr.isEnumValue]

/-- A walk arrives at an element in the same way: `copy.arrive = graph.arrive`. -/
theorem arrive (hr : Retypes graph copy) : copy.arrive = graph.arrive := by
  funext sort h
  rw [Graph.arrive, (hr.element h).isCompiled, Graph.arrive]

/-- The instances of class prototypes are declared as the same sort, `classSort`. -/
theorem classSort (hr : Retypes graph copy) : copy.classSort = graph.classSort := by
  funext h
  rw [Graph.classSort, (hr.element h).kind, Graph.classSort]

/-- **What a walk meets** does not depend on types: the `arrivals?` are the same. -/
theorem arrivals? (hr : Retypes graph copy) (h : Handle) :
    copy.arrivals? h = graph.arrivals? h := by
  unfold Graph.arrivals?
  rw [hr.arrive, hr.classSort]
  cases (hr.element h).body with
  | global _ _ _ eq eq' => simp only [eq, eq']
  | function _ _ eq eq' => simp only [eq, eq']
  | untyped eq => rw [eq]

/-- What is done on an arrival is the same when the declarations are:
`copy.meet declare' arrival = graph.meet declare arrival`. -/
theorem meet (hr : Retypes graph copy) {declare declare' : DeclarationSort → Handle → Build Unit}
    {arrival : Arrival}
    (hdeclare : ∀ sort a, arrival = .declare sort a → declare' sort a = declare sort a) :
    copy.meet declare' arrival = graph.meet declare arrival := by
  cases arrival with
  | declare sort a => exact hdeclare sort a rfl
  | skip a => rw [Graph.meet, (hr.element a).kind, (hr.element a).name, Graph.meet]

end Retypes

/-! ### WebIDL -/

namespace WebIdl

variable {visit visit' : Visitor}

/-- The entries of enums are declared alike in WebIDL: they show no types. -/
theorem declareEnumValue_congr (hr : Retypes graph copy) :
    declareEnumValue copy = declareEnumValue graph := by
  funext entry
  have he := hr.element entry.2
  simp only [declareEnumValue, he.flags, he.enumValueText]

/-- A global is declared alike in WebIDL with a type that is spelled alike. -/
theorem declareGlobal_congr (hr : Retypes graph copy) (halike : TypedAlike .webidl graph copy h) :
    declareGlobal copy (copy.element h) = declareGlobal graph (graph.element h) := by
  have he := hr.element h
  unfold declareGlobal
  rw [he.name, he.flags]
  cases halike with
  | global type type' constant eq eq' related =>
    have hspelled : Dialect.webidl.spellType _ type' = Dialect.webidl.spellType _ type := related
    simp only [eq, eq', hspelled]
  | function _ _ eq eq' => simp only [eq, eq']
  | untyped eq global =>
    rw [eq]
    cases hbody : (graph.element h).body with
    | global type constant => exact absurd hbody (global type constant)
    | _ => rfl

/-- A function is declared alike in WebIDL with a signature that looks alike. -/
theorem declareFunction_congr (hr : Retypes graph copy) (halike : TypedAlike .webidl graph copy h)
    (hvisit : ∀ m ∈ graph.expanded .webidl h, visit' m = visit m) :
    declareFunction copy visit' (copy.element h) = declareFunction graph visit (graph.element h) := by
  have he := hr.element h
  unfold declareFunction
  rw [he.name, he.memberItems]
  cases halike with
  | function signature signature' eq eq' related =>
    have hresult : Dialect.webidl.spellType _ signature'.returnType
      = Dialect.webidl.spellType _ signature.returnType := related.result
    simp only [expanded, eq] at hvisit
    simp only [eq, eq', hresult, related.declareParameters, memberBlock_congr hvisit]
  | global _ _ _ eq eq' => simp only [eq, eq']
  | untyped eq _ function =>
    rw [eq]
    cases hbody : (graph.element h).body with
    | function signature => exact absurd hbody (function signature)
    | _ => rfl

/-- **A declaration in WebIDL is the same** when the element is typed alike and the members that it
goes on to are visited in the same way. -/
theorem declare_congr (hr : Retypes graph copy) {sort : DeclarationSort}
    (hasks : (Arrival.declare sort h).Asks graph) (halike : TypedAlike .webidl graph copy h)
    (hvisit : ∀ m ∈ graph.expanded .webidl h, visit' m = visit m) :
    declare copy visit' sort h = declare graph visit sort h := by
  have he := hr.element h
  unfold declare
  congr 1
  funext fresh
  cases fresh with
  | false => rfl
  | true =>
    simp only [if_true]
    cases sort with
    | global => exact declareGlobal_congr hr halike
    | function => exact declareFunction_congr hr halike hvisit
    | classType | interfaceType => rw [declareClass, he.name, declareClass]
    | enumeration =>
      cases hbody : (graph.element h).body <;> simp [Arrival.Asks, hbody, Body.sort?] at hasks
      simp only [expanded, hbody] at hvisit
      simp only [declareEnum, he.name, he.memberItems, hr.enumValues, hr.otherMembers,
        declareEnumValue_congr hr, each_congr hvisit]
    | nameSpace =>
      cases hbody : (graph.element h).body <;> simp [Arrival.Asks, hbody, Body.sort?] at hasks
      simp only [expanded, hbody] at hvisit
      simp only [declareNameSpace, he.name, he.memberItems, memberBlock_congr hvisit]

end WebIdl

/-! ### TypeScript -/

namespace TypeScript

variable {visit visit' : Visitor}

/-- The entries of enums are declared alike in TypeScript: they show no types. -/
theorem declareEnumValue_congr (hr : Retypes graph copy) :
    declareEnumValue copy = declareEnumValue graph := by
  funext entry
  have he := hr.element entry.2
  simp only [declareEnumValue, he.flags, he.enumValueText]

/-- The namespace of members is declared alike when they are visited in the same way. -/
theorem declareMembers_congr {element element' : Element} (he : element.Retyped element')
    (hvisit : ∀ m ∈ element.memberItems.map (·.2), visit' m = visit m) :
    declareMembers visit' element' = declareMembers visit element := by
  rw [declareMembers, he.memberItems, he.name, memberBlock_congr hvisit, declareMembers]

/-- A global is declared alike in TypeScript with a type that is spelled alike. -/
theorem declareGlobal_congr (hr : Retypes graph copy) (halike : TypedAlike .typescript graph copy h)
    (hvisit : ∀ m ∈ graph.expanded .typescript h, visit' m = visit m) :
    declareGlobal copy visit' (copy.element h) = declareGlobal graph visit (graph.element h) := by
  have he := hr.element h
  unfold declareGlobal
  rw [he.name, he.flags]
  cases halike with
  | global type type' constant eq eq' related =>
    have hspelled : Dialect.typescript.spellType _ type' = Dialect.typescript.spellType _ type :=
      related
    simp only [expanded, eq, if_true] at hvisit
    simp only [eq, eq', hspelled, declareMembers_congr he hvisit]
  | function _ _ eq eq' => simp only [eq, eq']
  | untyped eq global =>
    rw [eq]
    cases hbody : (graph.element h).body with
    | global type constant => exact absurd hbody (global type constant)
    | _ => rfl

/-- A function is declared alike in TypeScript with a signature that looks alike. -/
theorem declareFunction_congr (hr : Retypes graph copy)
    (halike : TypedAlike .typescript graph copy h)
    (hvisit : ∀ m ∈ graph.expanded .typescript h, visit' m = visit m) :
    declareFunction copy visit' (copy.element h) = declareFunction graph visit (graph.element h) := by
  have he := hr.element h
  unfold declareFunction
  rw [he.name]
  cases halike with
  | function signature signature' eq eq' related =>
    have hresult : Dialect.typescript.spellType _ signature'.returnType
      = Dialect.typescript.spellType _ signature.returnType := related.result
    simp only [expanded, eq] at hvisit
    simp only [eq, eq', hresult, related.declareParameters, declareMembers_congr he hvisit]
  | global _ _ _ eq eq' => simp only [eq, eq']
  | untyped eq _ function =>
    rw [eq]
    cases hbody : (graph.element h).body with
    | function signature => exact absurd hbody (function signature)
    | _ => rfl

/-- A class is declared alike: it shows no types. -/
theorem declareClass_congr (hr : Retypes graph copy) (h : Handle) :
    declareClass copy (copy.element h) = declareClass graph (graph.element h) := by
  have he := hr.element h
  have hbase : baseWords copy = baseWords graph := by
    funext base
    cases base with
    | none => rfl
    | some b => rw [baseWords, (hr.element b).name, baseWords]
  have hwords : classWords (copy.element h) = classWords (graph.element h) := by
    rw [classWords, classWords, he.kind, he.flags]
  rw [declareClass, declareClass, he.classLinks?, he.name, hbase, hwords]

/-- **A declaration in TypeScript is the same** when the element is typed alike and the members that
it goes on to are visited in the same way. -/
theorem declare_congr (hr : Retypes graph copy) {sort : DeclarationSort}
    (hasks : (Arrival.declare sort h).Asks graph) (halike : TypedAlike .typescript graph copy h)
    (hvisit : ∀ m ∈ graph.expanded .typescript h, visit' m = visit m) :
    declare copy visit' sort h = declare graph visit sort h := by
  have he := hr.element h
  unfold declare
  congr 1
  funext fresh
  cases fresh with
  | false => rfl
  | true =>
    simp only [if_true]
    cases sort with
    | global => exact declareGlobal_congr hr halike hvisit
    | function => exact declareFunction_congr hr halike hvisit
    | classType | interfaceType => exact declareClass_congr hr h
    | enumeration =>
      cases hbody : (graph.element h).body <;> simp [Arrival.Asks, hbody, Body.sort?] at hasks
      simp only [expanded, hbody] at hvisit
      simp only [declareEnum, he.name, he.memberItems, hr.enumValues, hr.otherMembers,
        declareEnumValue_congr hr, memberBlock_congr hvisit]
    | nameSpace =>
      cases hbody : (graph.element h).body <;> simp [Arrival.Asks, hbody, Body.sort?] at hasks
      simp only [expanded, hbody] at hvisit
      exact declareMembers_congr he hvisit

end TypeScript

/-! ### Builds -/

namespace Retypes

/-- A declaration is the same when the element is typed alike and the members that it goes on to are
visited in the same way. -/
theorem declare (hr : Retypes graph copy) {sort : DeclarationSort} {visit visit' : Visitor}
    (hasks : (Arrival.declare sort h).Asks graph) (halike : TypedAlike dialect graph copy h)
    (hvisit : ∀ m ∈ graph.expanded dialect h, visit' m = visit m) :
    copy.declare dialect visit' sort h = graph.declare dialect visit sort h := by
  cases dialect with
  | webidl => exact WebIdl.declare_congr hr hasks halike hvisit
  | typescript => exact TypeScript.declare_congr hr hasks halike hvisit

/-- **Visits are the same** when all elements that they declare are `TypedAlike`. The induction is
on how deep declarations may nest. -/
theorem visit (hr : Retypes graph copy) (fuel : Nat) (h : Handle)
    (halike : ∀ a, Reached (graph.next dialect) (graph.resolved h) a →
      TypedAlike dialect graph copy a) :
    copy.visit dialect fuel h = graph.visit dialect fuel h := by
  induction fuel generalizing h with
  | zero => rfl
  | succ fuel ih =>
    unfold Graph.visit
    rw [hr.arrivals?, (hr.element h).kind, (hr.element h).name]
    cases harrivals : graph.arrivals? h with
    | none => rfl
    | some arrivals =>
      refine each_congr fun arrival harrival => hr.meet fun sort a heq => ?_
      subst heq
      have ha : a ∈ graph.resolved h := by
        rw [← declares_of_arrivals? harrivals]
        exact List.mem_flatMap.mpr ⟨_, harrival, List.mem_singleton_self a⟩
      refine hr.declare (asks_of_arrivals? harrivals _ harrival) (halike a (.root ha)) fun m hm => ?_
      -- what is reached from a member is reached from the element
      refine ih m fun b hb => halike b (Reached.trans (fun c hc => ?_) hb)
      exact .step (.root ha) (List.mem_flatMap.mpr ⟨m, hm, hc⟩)

/-- **Builds are the same** when all elements that are declared are `TypedAlike`:
`copy.build dialect = graph.build dialect`. -/
theorem build (hr : Retypes graph copy)
    (halike : ∀ a, Reached (graph.next dialect) graph.roots a → TypedAlike dialect graph copy a) :
    copy.build dialect = graph.build dialect := by
  have hwalk : copy.walk dialect = graph.walk dialect := by
    unfold Graph.walk
    rw [hr.exports]
    refine each_congr fun entry hentry => ?_
    have hvisit := hr.visit (graph.size + 1) entry.2 fun a ha => halike a
      (Reached.trans (fun b hb => .root (List.mem_flatMap.mpr ⟨entry, hentry, hb⟩)) ha)
    rw [Graph.visitElement, hr.size, hvisit, (hr.element entry.2).kind, Graph.visitElement]
  unfold Graph.build
  rw [hwalk]

end Retypes

end Graph

end ModuleSurface
