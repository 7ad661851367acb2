import ModuleSurface.Proofs.FullDraft
import ModuleSurface.Proofs.JsonTree

/-! # Graphs that JSON carries

JSON carries what an element holds itself when its name, its payloads, the references of its types
and the names of its parameters are scalars that JSON carries, and the keys of its member maps are
different texts. The drafts of such elements have trees that are read back from JSON.

* **`Element.Carried`** — an element of which JSON carries all that it holds itself.
* **`Graph.Carried`** — a graph of such elements.
* **`Json.Hereditary`** — a property that passes from scalars to lists and maps of them.
* **`Json.hereditary_element`** — the draft of an element inherits it from what the element refers to.
* **`Graph.FullDrafts.carries_root`** — JSON carries a graph that is written out in full.
* **`Graph.FullDrafts.unfold_toDocument`** — what its document is written out as. -/

namespace ModuleSurface

open Json (CarriesScalar CarriesKeys Carries)

/-! ## What is carried -/

/-- A value that JSON carries: a scalar. -/
def Value.Carried (v : Value) : Prop := ∃ s, v = .scalar s ∧ CarriesScalar s

/-- A type with references that JSON carries. -/
def ValueType.Carried (type : ValueType) : Prop :=
  (∀ v ∈ type.classReference, v.Carried) ∧ ∀ v ∈ type.signatureReference, v.Carried

/-- A signature with types and names that JSON carries. -/
structure Signature.Carried (signature : Signature) : Prop where
  parameters : ∀ type, some type ∈ signature.parameterTypes → type.Carried
  names : ∀ v ∈ signature.names, v.Carried
  result : ∀ type ∈ signature.returnType, type.Carried

/-- A member map with keys that JSON carries. -/
def Members.Carried (members : Members) : Prop := CarriesKeys (members.map (·.1))

/-- **A body of which JSON carries** the types, the payloads and the keys of the member maps. -/
def Body.Carried : Body → Prop
  | .global type constant =>
    (∀ t ∈ type, t.Carried) ∧ ∀ c ∈ constant, CarriesScalar c.value
  | .enumValue value => CarriesScalar value
  | .function signature => signature.Carried
  | .classType links | .interfaceType links =>
    (∀ members ∈ links.staticMembers, Members.Carried members) ∧
      ∀ members ∈ links.instanceMembers, Members.Carried members
  | _ => True

/-- **An element of which JSON carries** all that it holds itself. -/
structure Element.Carried (element : Element) : Prop where
  name : element.name.Carried
  members : ∀ members ∈ element.members, Members.Carried members
  body : element.body.Carried

/-- **A graph that JSON carries**: all elements that can be reached, and the names of the exports. -/
structure Graph.Carried (graph : Graph) : Prop where
  elements {h : Handle} : graph.Reachable h → (graph.element h).Carried
  exports : graph.exports.Carried

/-! ## Drafts that are carried -/

namespace Json

/-- A draft of which JSON carries the tree. -/
abbrev CarriesDraft (draft : Draft) : Prop := draft.Every CarriesScalar CarriesKeys

/-- A draft that JSON carries has a tree that JSON carries. -/
theorem carries_tree {draft : Draft} (h : CarriesDraft draft) : Carries draft.tree := by
  induction h with
  | scalar hs =>
    rw [Draft.tree_scalar]
    exact .scalar hs
  | list _ ih =>
    rw [Draft.tree_list]
    refine .list fun tree htree => ?_
    obtain ⟨draft, hdraft, rfl⟩ := List.mem_map.mp htree
    exact ih draft hdraft
  | @map entries keys _ ih =>
    rw [Draft.tree_map]
    refine .map ?_ fun written hwritten => ?_
    · rwa [List.map_map]
    · obtain ⟨entry, hentry, rfl⟩ := List.mem_map.mp hwritten
      exact ih entry hentry

/-- What JSON carries can be written: `s.leaf = .ok s`. -/
theorem leaf_of_carriesScalar {s : Scalar} (h : CarriesScalar s) : s.leaf = .ok s := by
  cases s with
  | int n => exact if_pos h
  | moment => exact h.elim
  | bytes => exact h.elim
  | _ => rfl

/-- Keys that JSON carries can be written. -/
theorem leaf_of_carriesKeys {keys : List Scalar} (h : CarriesKeys keys) :
    ∀ s ∈ keys, s.leaf = .ok s := by
  obtain ⟨names, rfl, -⟩ := h
  intro s hs
  obtain ⟨name, -, rfl⟩ := List.mem_map.mp hs
  rfl

/-- **A property that drafts inherit**: scalars that JSON carries have it, and lists and maps have it
if all that is in them has it. -/
structure Hereditary (P : Draft → Prop) : Prop where
  scalar {s : Scalar} (h : CarriesScalar s) : P (.value (.scalar s))
  list {items : List Draft} (h : ∀ draft ∈ items, P draft) : P (.list items)
  map {entries : List (Scalar × Draft)} (keys : CarriesKeys (entries.map (·.1)))
      (h : ∀ entry ∈ entries, P entry.2) : P (.map entries)

/-- What JSON carries is inherited by lists and maps: `CarriesDraft` is `Hereditary`. -/
theorem hereditary_carriesDraft : Hereditary CarriesDraft := ⟨.scalar, .list, .map⟩

variable {P : Draft → Prop}

/-- **Fields under some names**, in this order, with drafts that have a property. -/
structure FieldsHave (P : Draft → Prop) (fields : List (Scalar × Draft)) (names : List String) :
    Prop where
  keys : (fields.map (·.1)).Sublist (names.map .text)
  each : ∀ entry ∈ fields, P entry.2

namespace FieldsHave

variable {fields others : List (Scalar × Draft)} {names names' : List String} {draft : Draft}

/-- No fields have no names. -/
theorem nil : FieldsHave P [] [] := ⟨.refl _, List.forall_mem_nil _⟩

/-- One field that has the property, under its name. -/
theorem single {name : String} (hdraft : P draft) : FieldsHave P [(.text name, draft)] [name] :=
  ⟨.refl _, List.forall_mem_singleton.mpr hdraft⟩

/-- A field in front of others. -/
theorem cons {name : String} (hdraft : P draft) (h : FieldsHave P fields names) :
    FieldsHave P ((.text name, draft) :: fields) (name :: names) where
  keys := h.keys.cons_cons _
  each := List.forall_mem_cons.mpr ⟨hdraft, h.each⟩

/-- Fields behind others, under the names of both. -/
theorem append (h : FieldsHave P fields names) (h' : FieldsHave P others names') :
    FieldsHave P (fields ++ others) (names ++ names') where
  keys := by
    rw [List.map_append, List.map_append]
    exact h.keys.append h'.keys
  each := List.forall_mem_append.mpr ⟨h.each, h'.each⟩

/-- Fields have their property under more names, in the same order. -/
theorem mono (h : FieldsHave P fields names) (hnames : names.Sublist names') :
    FieldsHave P fields names' := ⟨h.keys.trans (hnames.map _), h.each⟩

/-- A field that is there or not, as `Draft.optional` has it. -/
theorem optional (name : String) {draft : Option Draft} (h : ∀ d ∈ draft, P d) :
    FieldsHave P (Draft.optional name draft) [name] := by
  cases draft with
  | none => exact nil.mono (List.nil_sublist _)
  | some draft => exact single (h draft rfl)

/-- The map of fields under different names. -/
theorem map (h : FieldsHave P fields names) (hP : Hereditary P) (hnodup : names.Nodup)
    (hnames : ∀ name ∈ names, Unpaired name.toList) : P (.map fields) := by
  refine hP.map ?_ h.each
  obtain ⟨used, hused, hkeys⟩ := List.sublist_map_iff.mp h.keys
  exact ⟨used, hkeys, hnodup.sublist hused, fun name hname => hnames name (hused.subset hname)⟩

end FieldsHave

/-! ### Parts of elements -/

section Parts

variable (hP : Hereditary P)

include hP

/-- A value that JSON carries has each hereditary property. -/
theorem hereditary_value {v : Value} (h : v.Carried) : P (.value v) := by
  obtain ⟨s, rfl, hs⟩ := h
  exact hP.scalar hs

/-- The draft of a type has the property if JSON carries what the type refers to. -/
theorem hereditary_type {type : Option ValueType} (h : ∀ t ∈ type, t.Carried) :
    P (ValueType.draft type) := by
  cases type with
  | none => exact hP.scalar trivial
  | some type =>
    have hkind : P (.value (.text type.kind.name)) := hP.scalar (by
      show Unpaired type.kind.name.toList
      cases type.kind <;> decide)
    obtain ⟨hclass, hsignature⟩ := h type rfl
    have hreference (name : String) {v : Option Value} (hv : ∀ w ∈ v, w.Carried) :
        FieldsHave P ((Entries.optional name v).map fun entry => (entry.1, .value entry.2)) [name] := by
      cases v with
      | none => exact FieldsHave.nil.mono (List.nil_sublist _)
      | some v => exact .single (hereditary_value hP (hv v rfl))
    rw [ValueType.draft]
    split
    · rw [Draft.ofEntries, List.map_cons, List.map_append]
      exact (FieldsHave.cons hkind ((hreference "class" hclass).append
        (hreference "signature" hsignature))).map hP (by decide) (by decide)
    · exact hkind

/-- The draft of flags has the property: it is a list of texts. -/
theorem hereditary_flags (flags : Flags) : P flags.draft := by
  have hnames : ∀ name ∈ flags.names, Unpaired name.toList := by
    obtain ⟨compiled, inlined, abstract⟩ := flags
    cases compiled <;> cases inlined <;> cases abstract <;> decide
  refine hP.list fun draft hdraft => ?_
  rw [List.map_map] at hdraft
  obtain ⟨name, hname, rfl⟩ := List.mem_map.mp hdraft
  exact hP.scalar (hnames name hname)

/-- The draft of a constant has the property if JSON carries its payload. -/
theorem hereditary_constant {constant : Constant} (h : CarriesScalar constant.value) :
    P constant.draft := by
  have hkind : P (.value (.text constant.kind.name)) := hP.scalar (by
    show Unpaired constant.kind.name.toList
    cases constant.kind <;> decide)
  exact (FieldsHave.cons hkind (.single (hP.scalar h))).map hP (by decide) (by decide)

/-- The draft of a signature has the property if JSON carries its names and types. -/
theorem hereditary_signature {signature : Signature} (h : signature.Carried) :
    P signature.draft := by
  have hparameter (parameter : Value × Option ValueType)
      (hmem : parameter ∈ signature.names.zip signature.parameterTypes) :
      P (Signature.parameterDraft parameter) := by
    obtain ⟨hname, htype⟩ := List.of_mem_zip hmem
    refine (FieldsHave.cons (hereditary_value hP (h.names _ hname))
      (.single (hereditary_type hP fun type heq => ?_))).map hP (by decide) (by decide)
    rw [Option.mem_def] at heq
    exact h.parameters type (heq ▸ htype)
  have hparameters : P (.list
      ((signature.names.zip signature.parameterTypes).map Signature.parameterDraft)) := by
    refine hP.list fun draft hdraft => ?_
    obtain ⟨parameter, hmem, rfl⟩ := List.mem_map.mp hdraft
    exact hparameter parameter hmem
  exact (FieldsHave.cons hparameters (.single (hereditary_type hP h.result))).map hP (by decide)
    (by decide)

end Parts

/-! ### Elements -/

/-- The names of the fields that the bodies have. -/
def bodyNames : List String :=
  ["type", "constant", "value", "signature", "instances", "base", "static_members", "instance_members"]

section Below

variable {below : Handle → Draft} (hP : Hereditary P)

include hP

/-- The draft of a member map has the property if the drafts of its members have it. -/
theorem hereditary_members {members : Members} (h : members.Carried)
    (hbelow : ∀ a ∈ members.map (·.2), P (below a)) : P (members.draft below) := by
  refine hP.map ?_ fun entry hentry => ?_
  · rw [List.map_map]
    exact h
  · obtain ⟨member, hmember, rfl⟩ := List.mem_map.mp hentry
    exact hbelow member.2 (List.mem_map_of_mem hmember)

/-- A member map that is there. -/
theorem hereditary_optionalMembers (name : String) {members : Option Members}
    (h : ∀ given ∈ members, Members.Carried given)
    (hbelow : ∀ a ∈ (members.getD []).map (·.2), P (below a)) :
    FieldsHave P (Draft.optional name (members.map (Members.draft below))) [name] := by
  refine .optional name fun draft hdraft => ?_
  obtain ⟨given, rfl, rfl⟩ := Option.map_eq_some_iff.mp hdraft
  exact hereditary_members hP (h given rfl) hbelow

/-- The fields of a body have the property if the drafts of its links have it; their names are among
`bodyNames`. -/
theorem hereditary_body {body : Body} (h : body.Carried) (hbelow : ∀ a ∈ body.links, P (below a)) :
    FieldsHave P (body.draft below) bodyNames := by
  cases body with
  | global type constant =>
    refine (FieldsHave.cons (hereditary_type hP h.1)
      (.optional "constant" fun draft hdraft => ?_)).mono (by decide)
    obtain ⟨given, rfl, rfl⟩ := Option.map_eq_some_iff.mp hdraft
    exact hereditary_constant hP (h.2 given rfl)
  | enumValue value =>
    exact (FieldsHave.single (hP.scalar h)).mono (by decide)
  | function signature =>
    exact (FieldsHave.single (hereditary_signature hP h)).mono (by decide)
  | functionPrototype instances | classPrototype instances =>
    have hinstances : P (.list (instances.map below)) := by
      refine hP.list fun draft hdraft => ?_
      obtain ⟨a, ha, rfl⟩ := List.mem_map.mp hdraft
      exact hbelow a ha
    exact (FieldsHave.single hinstances).mono (by decide)
  -- the base is a reference, the members are maps of their own
  | classType links | interfaceType links =>
    simp only [Body.links, List.mem_append, Option.mem_toList] at hbelow
    have hbase : FieldsHave P (Draft.optional "base" (links.base.map below)) ["base"] := by
      refine .optional "base" fun draft hdraft => ?_
      obtain ⟨b, hb, rfl⟩ := Option.map_eq_some_iff.mp hdraft
      exact hbelow b (.inl (.inl hb))
    exact ((hbase.append (hereditary_optionalMembers hP "static_members" h.1
      fun a ha => hbelow a (.inl (.inr ha)))).append (hereditary_optionalMembers hP "instance_members"
        h.2 fun a ha => hbelow a (.inr ha))).mono (by decide)
  | enumeration | nameSpace => exact FieldsHave.nil.mono (List.nil_sublist _)

/-- **The draft of an element inherits a property** from what it refers to, its `successors`, when
JSON carries all that it holds itself. -/
theorem hereditary_element {element : Element} (h : element.Carried)
    (hbelow : ∀ a ∈ element.successors, P (below a)) : P (.map (element.draft below)) := by
  simp only [Element.successors, List.mem_append] at hbelow
  have hkind : P (.value (.text element.kind.name)) := hP.scalar (by
    show Unpaired element.kind.name.toList
    cases element.kind <;> decide)
  have hflags : FieldsHave P (Draft.optional "flags"
      (if element.flags.names = [] then none else some element.flags.draft)) ["flags"] := by
    refine .optional "flags" fun draft hdraft => ?_
    split at hdraft
    · cases hdraft
    · cases hdraft
      exact hereditary_flags hP element.flags
  have hhead : FieldsHave P [(.text "kind", .value (.text element.kind.name)),
      (.text "name", .value element.name)] ["kind", "name"] :=
    .cons hkind (.single (hereditary_value hP h.name))
  exact (((hhead.append hflags).append (hereditary_body hP h.body fun a ha =>
    hbelow a (.inr ha))).append (hereditary_optionalMembers hP "members" h.members fun a ha =>
      hbelow a (.inl ha))).map hP (by decide) (by decide)

/-- The draft of a whole graph, `graph.rootDraft below`, inherits it from what is exported. -/
theorem hereditary_root {graph : Graph} (h : graph.exports.Carried)
    (hbelow : ∀ a ∈ graph.exports.map (·.2), P (below a)) : P (graph.rootDraft below) := by
  have hwidth : P (.value (.bool graph.is64Bit)) := hP.scalar trivial
  exact (FieldsHave.cons hwidth (.single (hereditary_members hP h hbelow))).map hP (by decide)
    (by decide)

end Below

end Json

/-! ## Graphs -/

namespace Graph

open Json (CarriesDraft hereditary_carriesDraft)

variable {graph : Graph} {below : Handle → Draft}

/-- The full draft of every element is carried. -/
theorem FullDrafts.carries (hfull : graph.FullDrafts below) (hcarried : graph.Carried)
    {waiting : List Handle} {forest : Forest Handle}
    (hu : Unfolded (fun h => (graph.element h).successors) waiting forest)
    (hwaiting : ∀ h ∈ waiting, graph.Reachable h) : ∀ h ∈ waiting, CarriesDraft (below h) := by
  induction hu with
  | done => exact List.forall_mem_nil _
  | @node waiting a _ _ _ _ ihBelow ihLater =>
    obtain ⟨ha, hwaiting⟩ := List.forall_mem_cons.mp hwaiting
    refine List.forall_mem_cons.mpr ⟨?_, ihLater hwaiting⟩
    rw [hfull a ha]
    exact Json.hereditary_element hereditary_carriesDraft (hcarried.elements ha)
      (ihBelow fun b hb => .step ha hb)

/-- **The draft of a whole graph is carried.** -/
theorem FullDrafts.carries_root (hfull : graph.FullDrafts below) (hcarried : graph.Carried)
    {forest : Forest Handle}
    (hu : Unfolded (fun h => (graph.element h).successors) (graph.exports.map (·.2)) forest) :
    CarriesDraft (graph.rootDraft below) :=
  Json.hereditary_root hereditary_carriesDraft hcarried.exports
    (hfull.carries hcarried hu fun _ ha => .root ha)

/-- **The document of a graph is written out** as the tree of its full draft, if JSON carries that:
`graph.toDocument.unfold = .ok (graph.rootDraft below).tree`. -/
theorem FullDrafts.unfold_toDocument (hfull : graph.FullDrafts below) (hsound : graph.Sound)
    {forest : Forest Handle}
    (hu : Unfolded (fun h => (graph.element h).successors) (graph.exports.map (·.2)) forest)
    (hdraft : CarriesDraft (graph.rootDraft below)) :
    graph.toDocument.unfold = .ok (graph.rootDraft below).tree := by
  obtain ⟨place, hplaced, -, -⟩ := placedAs_toDocument hsound
  exact (hplaced.root_full hfull hu).unfold
    (hdraft.mono (fun _ => Json.leaf_of_carriesScalar) fun _ => Json.leaf_of_carriesKeys)

end Graph

end ModuleSurface
