import ModuleSurface.Proofs.Offences
import ModuleSurface.Proofs.Retyping

/-! # Addressing widths

The addressing width of a graph is asked for wherever a plain type is spelled, and nowhere else. So
it may be settled beforehand, by giving every plain type of pointer size the kind of that width, and
then the width of the graph does not matter any more.

* **`Element.recast`** — an element with its types replaced.
* **`Graph.typedAlike_of_recast`** — a replacement of types that leaves their spelling.
* **`Graph.outcome_withWidth`** — the addressing width is a substitution of kinds. -/

namespace ModuleSurface

/-! ## Replacing types -/

/-- **A plain type under an addressing width** has the kind of that width; a reference stays. -/
def ValueType.atWidth (is64Bit : Bool) (type : ValueType) : ValueType :=
  if type.isReference then type else { type with kind := type.kind.resolve is64Bit }

/-- A plain type of pointer size. -/
def ValueType.PointerSized (type : ValueType) : Prop :=
  type.isReference = false ∧ (type.kind = .isize ∨ type.kind = .usize)

/-- A signature with its types replaced. -/
def Signature.recast (f : Option ValueType → Option ValueType) (signature : Signature) : Signature :=
  { signature with
    parameterTypes := signature.parameterTypes.map f
    returnType := f signature.returnType }

/-- A body with its types replaced. -/
def Body.recast (f : Option ValueType → Option ValueType) : Body → Body
  | .global type constant => .global (f type) constant
  | .function signature => .function (signature.recast f)
  | body => body

/-- **An element with its types replaced.** Everything else stays. -/
def Element.recast (f : Option ValueType → Option ValueType) (element : Element) : Element :=
  { element with body := element.body.recast f }

/-- **The graph with all plain types settled** for an addressing width. -/
def Graph.settled (graph : Graph) (is64Bit : Bool) : Graph :=
  { graph with
    elements := graph.elements.map (Element.recast (Option.map (ValueType.atWidth is64Bit))) }

variable {f : Option ValueType → Option ValueType}

/-- The types are replaced by themselves: `element.recast id = element`. -/
@[simp] theorem Element.recast_id (element : Element) : element.recast id = element := by
  obtain ⟨name, flags, members, body⟩ := element
  cases body <;> simp [recast, Body.recast, Signature.recast]

/-- An element `element.recast f` is the element retyped. -/
theorem Element.retyped_recast (element : Element) : element.Retyped (element.recast f) where
  name := rfl
  flags := rfl
  members := rfl
  body := by
    show Body.Retyped _ _ element.body (element.body.recast f)
    cases element.body with
    | global type constant => exact .global type (f type) constant rfl rfl trivial
    | function signature => exact .function signature (signature.recast f) rfl rfl trivial
    | _ => exact .untyped rfl (fun _ _ h => by cases h) fun _ h => by cases h

/-- **Settling the width of a type** by `atWidth` leaves its spelling under this width, and the
spelling does not depend on the width any more. -/
theorem Dialect.spellType_atWidth (dialect : Dialect) (is64Bit other : Bool)
    (type : Option ValueType) :
    dialect.spellType other (type.map (ValueType.atWidth is64Bit))
      = dialect.spellType is64Bit type := by
  cases type with
  | none => rfl
  | some type =>
    by_cases href : type.isReference = true
    · simp [spellType, ValueType.atWidth, href]
    · have hplain : ({ type with kind := type.kind.resolve is64Bit } : ValueType).isReference
          = false := by
        simpa [ValueType.isReference] using href
      simp [spellType, ValueType.atWidth, href, hplain]

/-- A type that is not of pointer size is spelled alike under both widths by `spellType`. -/
theorem Dialect.spellType_width (dialect : Dialect) (is64Bit other : Bool) {type : Option ValueType}
    (h : ∀ t ∈ type, ¬ t.PointerSized) :
    dialect.spellType other type = dialect.spellType is64Bit type := by
  cases type with
  | none => rfl
  | some type =>
    have hresolve (width : Bool) (href : type.isReference = false) :
        type.kind.resolve width = type.kind := by
      have hnot : ¬ (type.kind = .isize ∨ type.kind = .usize) := fun hk => h type rfl ⟨href, hk⟩
      cases hkind : type.kind <;> simp [hkind] at hnot <;> rfl
    by_cases href : type.isReference = true
    · simp [spellType, href]
    · simp only [Bool.not_eq_true] at href
      simp [spellType, href, hresolve]

namespace Graph

/-- **A replacement of types that leaves their spelling** leaves an element `TypedAlike`. -/
theorem typedAlike_of_recast {graph copy : Graph} {dialect : Dialect} {h : Handle}
    (hcopy : copy.element h = (graph.element h).recast f)
    (halike : ∀ type ∈ graph.types dialect h, SpelledAlike dialect graph copy type (f type)) :
    TypedAlike dialect graph copy h := by
  have hbody : (copy.element h).body = (graph.element h).body.recast f := by rw [hcopy]; rfl
  unfold types at halike
  cases hkind : (graph.element h).body with
  | global type constant =>
    rw [hkind] at hbody halike
    exact .global type (f type) constant hkind hbody (halike type List.mem_cons_self)
  | function signature =>
    rw [hkind] at hbody halike
    have hmem (type : Option ValueType)
        (htype : type = signature.returnType ∨ type ∈ signature.parameterTypes) :
        SpelledAlike dialect graph copy type (f type) := by
      refine halike type ?_
      cases dialect <;> simpa [or_comm] using htype
    refine .function signature (signature.recast f) hkind hbody ⟨?_, ?_, hmem _ (.inl rfl)⟩
    · refine List.forall₂_map_right_iff.mpr (List.forall₂_same.mpr fun type htype => ?_)
      exact hmem type (.inr htype)
    · simp [Signature.names, Signature.recast, Signature.parameterName]
  | _ =>
    rw [hkind] at hbody
    exact .untyped (hbody.trans hkind.symm) (fun _ _ h => by rw [hkind] at h; cases h)
      fun _ h => by rw [hkind] at h; cases h

/-! ## Addressing widths -/

/-- What comes of rendering a graph: the definitions, or why there are none and the sentence about it,
and the log. -/
def outcome (graph : Graph) (dialect : Dialect) :
    Except (RenderError × Option String) String × List LogEntry :=
  (((graph.renderLogged dialect).result.mapError fun cause => (cause, cause.message? graph.store)),
    (graph.renderLogged dialect).log)

/-- An enum value has no types: `(graph.element h).kind ≠ .enumValue`. -/
theorem kind_ne_of_mem_types {graph : Graph} {dialect : Dialect} {h : Handle}
    {type : Option ValueType} (htype : type ∈ graph.types dialect h) :
    (graph.element h).kind ≠ .enumValue := by
  intro hkind
  unfold types at htype
  unfold Element.kind at hkind
  cases hbody : (graph.element h).body <;> rw [hbody] at hkind htype <;> cases hkind
  exact absurd htype List.not_mem_nil

variable (graph : Graph) (dialect : Dialect)

/-- The elements of the settled graph are those of the graph with their types replaced, by `recast`.
-/
theorem element_settled (is64Bit : Bool) (h : Handle) : (graph.settled is64Bit).element h
    = (graph.element h).recast (Option.map (ValueType.atWidth is64Bit)) :=
  element_map rfl graph h

/-- The settled graph is the graph retyped, whatever the widths: `Retypes` from `withWidth` to
`settled`. -/
theorem retypes_settled (is64Bit other : Bool) :
    Retypes (graph.withWidth is64Bit) ((graph.settled is64Bit).withWidth other) where
  element h := graph.element_settled is64Bit h ▸ (graph.element h).retyped_recast
  exports := rfl
  size := Array.size_map

/-- The graph under another width has the same elements, so it is a retyping: `Retypes`. -/
theorem retypes_withWidth (is64Bit other : Bool) :
    Retypes (graph.withWidth is64Bit) (graph.withWidth other) where
  element h := by
    have hretyped : (graph.element h).Retyped ((graph.element h).recast id) :=
      (graph.element h).retyped_recast
    rwa [Element.recast_id] at hretyped
  exports := rfl
  size := rfl

/-- **The addressing width is a substitution of kinds.** Under a width a graph has the definitions, or
the failure and its sentence, that it has under any width once its plain types of pointer size are
given the kinds of the first one. So where no live element has a plain type of pointer size, the width
does not matter. -/
theorem outcome_withWidth (is64Bit : Bool) :
    (∀ other, ((graph.settled is64Bit).withWidth other).outcome dialect
      = (graph.withWidth is64Bit).outcome dialect) ∧
    ((∀ h, graph.Live dialect h → ∀ type, some type ∈ graph.types dialect h → ¬ type.PointerSized) →
      ∀ other, (graph.withWidth other).outcome dialect
        = (graph.withWidth is64Bit).outcome dialect) := by
  constructor
  · intro other
    have hbuild : ((graph.settled is64Bit).withWidth other).build dialect
        = (graph.withWidth is64Bit).build dialect :=
      (graph.retypes_settled is64Bit other).build fun a _ =>
        typedAlike_of_recast (graph.element_settled is64Bit a) fun type _ =>
          dialect.spellType_atWidth is64Bit other type
    rw [outcome, renderLogged, hbuild]
    rfl
  · intro hplain other
    have hbuild : (graph.withWidth other).build dialect = (graph.withWidth is64Bit).build dialect :=
      (graph.retypes_withWidth is64Bit other).build fun a ha =>
        typedAlike_of_recast (Element.recast_id _).symm fun type htype => by
          refine dialect.spellType_width is64Bit other fun t ht => ?_
          exact hplain a ⟨ha, kind_ne_of_mem_types htype⟩ t (ht ▸ htype)
    rw [outcome, renderLogged, hbuild]
    rfl

/-- A global of pointer size, and a namespace that is a member of itself with the global as the other
member. -/
def heapGraph (compiled : Bool) : Graph where
  elements := #[
    { name := .text "heapBase", flags := { compiled }, body := .global (some (.plain .usize)) none },
    { name := .text "memory", flags := { compiled := true },
      members := some [(.text "self", 1), (.text "heapBase", 0)], body := .nameSpace }]
  exports := [(.text "memory", 1)]

/-- Settled for 64 bits, the global has 64 bits under the width of 32 bits as well. Where it is not
compiled, the width does not matter. -/
theorem outcome_withWidth_heapBase :
    (((heapGraph true).settled true).withWidth false).outcome .webidl
      = ((heapGraph true).withWidth true).outcome .webidl ∧
    (((heapGraph true).withWidth true).outcome .webidl).1 = .ok
      "interface ASModule \x7b\n  interface memory \x7b\n    unsigned long long heapBase;\n  \x7d\n\x7d\n" ∧
    (((heapGraph true).withWidth false).outcome .webidl).1 = .ok
      "interface ASModule \x7b\n  interface memory \x7b\n    unsigned long heapBase;\n  \x7d\n\x7d\n" ∧
    ((heapGraph false).withWidth false).outcome .webidl
      = ((heapGraph false).withWidth true).outcome .webidl := by
  have hlive : ∀ h, (heapGraph false).Live .webidl h → h = 1 := by
    rintro h ⟨hreached, -⟩
    refine hreached.mem_of_closed (S := (· = 1)) (by decide) ?_
    rintro a rfl
    decide
  refine ⟨((heapGraph true).outcome_withWidth .webidl true).1 false, by decide +kernel,
    by decide +kernel, ((heapGraph false).outcome_withWidth .webidl true).2 ?_ false⟩
  intro h hh type htype
  obtain rfl := hlive h hh
  exact absurd htype List.not_mem_nil

end Graph

end ModuleSurface
