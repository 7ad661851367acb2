import ModuleSurface.Proofs.Encoding
import ModuleSurface.Proofs.Recognition
import ModuleSurface.Proofs.Retyping

/-! # Signatures in normal form

A signature may have fewer names than types, or more. What is written of it, and what is shown of it
in definitions, are as many names as there are types, the missing ones made from their places. So
writing a signature and reading it again gives it in normal form, and from then on nothing changes.

* **`Signature.normal`** — the normal form, with a name for each type.
* **`Graph.normal`** — a graph with the signatures of all its functions in normal form.
* **`Graph.build_normal`** — a graph with all signatures in normal form is built alike.
* **`Signature.normal_of_written`** — writing and reading a signature gives its normal form. -/

namespace ModuleSurface

/-! ## The normal form -/

/-- **The normal form of a signature** has a name for each type and no other name. -/
def Signature.normal (signature : Signature) : Signature :=
  { signature with parameterNames := signature.names }

namespace Signature

variable {signature : Signature}

/-- The normal form has the types of the signature. -/
@[simp] theorem parameterTypes_normal (signature : Signature) :
    signature.normal.parameterTypes = signature.parameterTypes := rfl

/-- The normal form has a name for each type, as `names` has it. -/
@[simp] theorem parameterNames_normal (signature : Signature) :
    signature.normal.parameterNames = signature.names := rfl

/-- The normal form has the result of the signature:
`signature.normal.returnType = signature.returnType`. -/
@[simp] theorem returnType_normal (signature : Signature) :
    signature.normal.returnType = signature.returnType := rfl

/-- The names of the parameters stay as they are: `signature.normal.names = signature.names`. -/
@[simp] theorem names_normal (signature : Signature) : signature.normal.names = signature.names := by
  have hlength : signature.normal.parameterNames.length = signature.normal.parameterTypes.length :=
    signature.length_names
  exact names_eq hlength

/-- The normal form is in normal form: `signature.normal.normal = signature.normal`. -/
@[simp] theorem normal_normal (signature : Signature) :
    signature.normal.normal = signature.normal := by
  rw [normal, names_normal]
  rfl

/-- A signature is in normal form when its names are those that `names` gives. -/
theorem normal_eq_self_iff :
    signature.normal = signature ↔ signature.names = signature.parameterNames := by
  obtain ⟨types, names, result⟩ := signature
  simp [normal]

/-- The draft of a signature is that of its normal form:
`signature.normal.draft = signature.draft`. -/
theorem draft_normal (signature : Signature) : signature.normal.draft = signature.draft := by
  simp [draft]

end Signature

/-- A body with its signature in normal form. -/
def Body.normal : Body → Body
  | .function signature => .function signature.normal
  | body => body

/-- The normal form of a body, `body.normal`, is the body with another signature. -/
theorem Body.retyped_normal {types : Option ValueType → Option ValueType → Prop}
    {signatures : Signature → Signature → Prop} (htypes : ∀ type, types type type)
    (hsignatures : ∀ signature, signatures signature signature.normal) (body : Body) :
    Body.Retyped types signatures body body.normal := by
  cases body with
  | global type constant => exact .global type type constant rfl rfl (htypes type)
  | function signature => exact .function signature signature.normal rfl rfl (hsignatures signature)
  | _ => exact .untyped rfl (fun _ _ h => by cases h) fun _ h => by cases h

/-- An element with its signature in normal form. -/
def Element.normal (element : Element) : Element := { element with body := element.body.normal }

namespace Graph

/-- **The graph with all signatures in normal form.** -/
def normal (graph : Graph) : Graph := { graph with elements := graph.elements.map Element.normal }

variable (graph : Graph)

/-- The elements of `graph.normal` are those of the graph in normal form. -/
@[simp] theorem element_normal (h : Handle) : graph.normal.element h = (graph.element h).normal :=
  element_map rfl graph h

/-! ## Building -/

/-- The graph in normal form is the graph retyped: `Retypes graph graph.normal`. -/
theorem retypes_normal : Retypes graph graph.normal where
  element h := by
    rw [element_normal]
    exact ⟨rfl, rfl, rfl, Body.retyped_normal (fun _ => trivial) (fun _ => trivial) _⟩
  exports := rfl
  size := Array.size_map

/-- A signature and its normal form look alike: they have the same `names`. -/
theorem sameSignature_normal (dialect : Dialect) (signature : Signature) :
    SameSignature dialect graph graph.normal signature signature.normal where
  parameters := List.forall₂_same.mpr fun _ _ => rfl
  names := by rw [Signature.names_normal]
  result := rfl

/-- **A graph with all signatures in normal form is built alike**:
`graph.normal.build dialect = graph.build dialect`. -/
theorem build_normal (dialect : Dialect) : graph.normal.build dialect = graph.build dialect := by
  refine graph.retypes_normal.build fun h _ => ?_
  have hspelled (type : Option ValueType) : SpelledAlike dialect graph graph.normal type type := rfl
  rw [TypedAlike, element_normal]
  exact Body.retyped_normal hspelled (graph.sameSignature_normal dialect) _

/-! ## Writing and reading -/

/-- The graph with an element made a function of a signature. -/
def withSignature (h : Handle) (signature : Signature) : Graph :=
  { graph with elements := graph.elements.modify h fun e => { e with body := .function signature } }

/-- Putting a signature or its normal form in place makes no difference in normal form. -/
theorem normal_withSignature (h : Handle) (signature : Signature) :
    (graph.withSignature h signature.normal).normal = (graph.withSignature h signature).normal := by
  have helements : (graph.withSignature h signature.normal).elements.map Element.normal
      = (graph.withSignature h signature).elements.map Element.normal := by
    refine Array.ext (by simp [withSignature]) fun i hi hi' => ?_
    by_cases hself : h = i
    · simp [withSignature, Array.getElem_modify, hself, Element.normal, Body.normal]
    · simp [withSignature, Array.getElem_modify, hself]
  rw [normal, helements]
  rfl

/-- Writing a signature leaves the draft of its normal form, which is read. -/
theorem readSignature_written {signature : Signature}
    (hsound : ∀ type, some type ∈ signature.returnType :: signature.parameterTypes → type.Sound)
    (store : Store) :
    (store.writeSignature signature).1.readSignature (store.writeSignature signature).2
      = .ok signature.normal := by
  have hnormal : signature.normal.Sound :=
    { parameters := fun type htype => hsound type (List.mem_cons_of_mem _ htype)
      result := fun type htype => hsound type (by rw [← htype]; exact List.mem_cons_self)
      names := signature.length_names }
  have hwrites : Writing.Leaves (fun _ => False) _ fun later v => later.Holds signature.draft v :=
    Writing.writeSignature_leaves signature
  obtain ⟨-, hleaves⟩ := hwrites store fun _ h => h.elim
  have hholds := hleaves _ (.refl _ _)
  rw [← signature.draft_normal] at hholds
  exact Store.readSignature_of_holds hnormal hholds

end Graph

/-- **Writing a signature and reading it again gives its normal form**: the same types and result, and
a name for each type. It is the signature itself exactly when it has these names already, it is
written as the signature is, and a function is built alike with either. References of types are values
other than null, which stands for none. -/
theorem Signature.normal_of_written {signature : Signature}
    (hsound : ∀ type, some type ∈ signature.returnType :: signature.parameterTypes → type.Sound) :
    (∀ store : Store,
      (store.writeSignature signature).1.readSignature (store.writeSignature signature).2
        = .ok ⟨signature.parameterTypes,
            (List.range signature.parameterTypes.length).map signature.parameterName,
            signature.returnType⟩) ∧
      (signature.normal = signature ↔
        (List.range signature.parameterTypes.length).map signature.parameterName
          = signature.parameterNames) ∧
      (∀ store : Store, store.writeSignature signature.normal = store.writeSignature signature) ∧
      ∀ (graph : Graph) (h : Handle) (dialect : Dialect),
        (graph.withSignature h signature.normal).build dialect
          = (graph.withSignature h signature).build dialect := by
  refine ⟨Graph.readSignature_written hsound, normal_eq_self_iff, fun store => ?_,
    fun graph h dialect => ?_⟩
  · simp only [Store.writeSignature, names_normal, parameterTypes_normal, returnType_normal]
  · rw [← Graph.build_normal, Graph.normal_withSignature, Graph.build_normal]

/-- A signature of three parameters with one name. The second one has no type, and the third one is
of a class without a name; there is no result. -/
def oneNameSignature : Signature where
  parameterTypes := [some (.plain .usize), none, some ⟨.u32, some (.text ""), none⟩]
  parameterNames := [.text "size"]
  returnType := none

/-- The other parameters are given their names by writing and reading. -/
theorem normal_of_written_oneName :
    (∀ type, some type ∈ oneNameSignature.returnType :: oneNameSignature.parameterTypes →
        type.Sound) ∧
      (∀ store : Store, (store.writeSignature oneNameSignature).1.readSignature
          (store.writeSignature oneNameSignature).2
        = .ok { oneNameSignature with
            parameterNames := [.text "size", .text "arg1", .text "arg2"] }) ∧
      oneNameSignature.normal ≠ oneNameSignature := by
  have hsound : ∀ type, some type ∈ oneNameSignature.returnType :: oneNameSignature.parameterTypes →
      type.Sound := by
    intro type htype
    simp only [oneNameSignature, List.mem_cons, Option.some.injEq, List.not_mem_nil, or_false,
      reduceCtorEq, false_or] at htype
    rcases htype with rfl | rfl
    · exact ⟨by decide, by decide⟩
    · exact ⟨by decide, by decide⟩
  obtain ⟨hread, hself, -, -⟩ := Signature.normal_of_written hsound
  exact ⟨hsound, hread, fun h => absurd (hself.mp h) (by decide)⟩

end ModuleSurface
