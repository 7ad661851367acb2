import Mathlib.Algebra.Order.Group.Multiset
import ModuleSurface.Document.Tree
import ModuleSurface.Proofs.Growth

/-! # Drafts of what is written

What is written into a store is a list or a map of things that are written too, down to values that
are there already. A draft says which, without the places that the lists and maps get. It is told
apart from the store, so the same draft can be found in the store of a document that was written and
in that of a text that was read.

* **`Draft`** — a value, or a list or a map of drafts.
* **`Store.Holds`** — a value stands for a draft in a store.
* **`Store.mapsOf`** — the places of the maps that stand for a draft.
* **`Element.draft`** — the fields of an element, given the drafts of what it refers to. -/

namespace ModuleSurface

/-- **A draft**: a value, or a list or a map of drafts. -/
inductive Draft
  | value (v : Value)
  | list (items : List Draft)
  | map (entries : List (Scalar × Draft))

namespace Draft

/-- **Induction on a draft**: what is true of values, and of lists and maps if it is true of all
that is in them. -/
@[elab_as_elim, induction_eliminator]
theorem induction {motive : Draft → Prop} (value : ∀ v, motive (.value v))
    (list : ∀ items, (∀ draft ∈ items, motive draft) → motive (.list items))
    (map : ∀ entries, (∀ entry ∈ entries, motive entry.2) → motive (.map entries))
    (draft : Draft) : motive draft :=
  @Draft.rec motive (fun items => ∀ draft ∈ items, motive draft)
    (fun entries => ∀ entry ∈ entries, motive entry.2) (fun entry => motive entry.2)
    value list map (by simp) (fun _ _ hfirst hrest => List.forall_mem_cons.mpr ⟨hfirst, hrest⟩)
    (by simp) (fun _ _ hfirst hrest => List.forall_mem_cons.mpr ⟨hfirst, hrest⟩) (fun _ _ h => h)
    draft

/-- A field that is there, or none. -/
def optional (name : String) (draft : Option Draft) : List (Scalar × Draft) :=
  draft.toList.map fun draft => (.text name, draft)

/-- The map of some entries. -/
def ofEntries (entries : Entries) : Draft := .map (entries.map fun entry => (entry.1, .value entry.2))

/-- The list of some values. -/
def ofItems (items : List Value) : Draft := .list (items.map .value)

end Draft

/-! ## Fields -/

namespace Entries

/-- A field is found at the first entry of its name, or behind it. -/
@[simp] theorem field?_cons (key name : String) (v : Value) (entries : Entries) :
    field? ((.text key, v) :: entries) name = if key = name then some v else field? entries name := by
  by_cases h : key = name <;> simp [field?, h]

/-- A field is found in the first entries, or in the others. -/
@[simp] theorem field?_append (entries others : Entries) (name : String) :
    field? (entries ++ others) name = (field? entries name).or (field? others name) := by
  simp only [field?, List.find?_append]
  cases entries.find? fun entry => entry.1 == .text name <;> rfl

/-- A field that is there, or none. -/
def optional (name : String) (v : Option Value) : Entries :=
  v.toList.map fun v => (.text name, v)

/-- An optional field is found under its name, if it is there. -/
@[simp] theorem field?_optional (key name : String) (v : Option Value) :
    field? (optional key v) name = if key = name then v else none := by
  cases v <;> simp [optional]

end Entries

/-- A value that is there is the value: `Value.ofOption (some v) = v`. -/
@[simp] theorem Value.ofOption_some (v : Value) : Value.ofOption (some v) = v := rfl

/-- A value that is not there is the null: `Value.ofOption none = .null`. -/
@[simp] theorem Value.ofOption_none : Value.ofOption none = .null := rfl

/-! ## Drafts in a store -/

namespace Store

/-- **A value stands for a draft** in a store: it is the value itself, or refers to a list or a map
of the store whose items or entries stand for those of the draft, in order and under the same
keys. -/
inductive Holds (store : Store) : Draft → Value → Prop
  | value (v : Value) : Holds store (.value v) v
  | list {items : List Draft} {ref : Nat} (inside : ref < store.lists.size)
      (each : List.Forall₂ (Holds store) items (store.items ref)) : Holds store (.list items) (.list ref)
  | map {entries : List (Scalar × Draft)} {ref : Nat} (inside : ref < store.maps.size)
      (keys : entries.map (·.1) = (store.entries ref).map (·.1))
      (each : List.Forall₂ (Holds store) (entries.map (·.2)) ((store.entries ref).map (·.2))) :
      Holds store (.map entries) (.map ref)

/-- Entries stand for drafts under the same keys. -/
def HoldsEntries (store : Store) : List (Scalar × Draft) → Entries → Prop :=
  List.Forall₂ fun draft entry => draft.1 = entry.1 ∧ store.Holds draft.2 entry.2

variable {store later : Store}

/-- A value stands for itself only: `store.Holds (.value v) w ↔ w = v`. -/
@[simp] theorem holds_value_iff {v w : Value} : store.Holds (.value v) w ↔ w = v := by
  constructor
  · rintro ⟨⟩
    rfl
  · rintro rfl
    exact .value w

/-- A list of the store stands for a draft of a list when its items stand for the drafts, one by
one. -/
theorem holds_list_iff {items : List Draft} {v : Value} : store.Holds (.list items) v ↔
    ∃ ref, v = .list ref ∧ ref < store.lists.size ∧
      List.Forall₂ store.Holds items (store.items ref) := by
  constructor
  · rintro (_ | ⟨inside, each⟩)
    exact ⟨_, rfl, inside, each⟩
  · rintro ⟨ref, rfl, inside, each⟩
    exact .list inside each

/-- Entries are held when their keys are the same and their values are held. -/
theorem holdsEntries_iff {drafts : List (Scalar × Draft)} {entries : Entries} :
    store.HoldsEntries drafts entries ↔ drafts.map (·.1) = entries.map (·.1) ∧
      List.Forall₂ store.Holds (drafts.map (·.2)) (entries.map (·.2)) := by
  -- keys and values are compared entry by entry
  induction drafts generalizing entries with
  | nil => cases entries <;> simp [HoldsEntries]
  | cons draft drafts ih =>
    cases entries with
    | nil => simp [HoldsEntries]
    | cons entry entries =>
      rw [HoldsEntries] at ih ⊢
      simp only [List.forall₂_cons, ih, List.map_cons, List.cons.injEq]
      tauto

/-- A map of the store stands for a draft of a map when its entries stand for the drafts, one by
one. -/
theorem holds_map_iff {drafts : List (Scalar × Draft)} {v : Value} :
    store.Holds (.map drafts) v ↔ ∃ ref, v = .map ref ∧ ref < store.maps.size ∧
      store.HoldsEntries drafts (store.entries ref) := by
  constructor
  · rintro (_ | _ | ⟨inside, keys, each⟩)
    exact ⟨_, rfl, inside, holdsEntries_iff.mpr ⟨keys, each⟩⟩
  · rintro ⟨ref, rfl, inside, each⟩
    obtain ⟨keys, each⟩ := holdsEntries_iff.mp each
    exact .map inside keys each

/-- Entries are held by themselves only. -/
theorem holdsEntries_values_iff {entries others : Entries} :
    store.HoldsEntries (entries.map fun entry => (entry.1, .value entry.2)) others ↔
      others = entries := by
  rw [HoldsEntries, List.forall₂_map_left_iff, eq_comm, ← List.forall₂_eq_eq_eq]
  simp [Prod.ext_iff, eq_comm]

/-- What stands for entries as they are is a map of the store with these entries. -/
@[simp] theorem holds_ofEntries_iff {entries : Entries} {v : Value} :
    store.Holds (.ofEntries entries) v ↔
      ∃ ref, v = .map ref ∧ ref < store.maps.size ∧ store.entries ref = entries := by
  simp only [Draft.ofEntries, holds_map_iff, holdsEntries_values_iff]

/-- What stands for items as they are is a list of the store with these items. -/
@[simp] theorem holds_ofItems_iff {items : List Value} {v : Value} :
    store.Holds (.ofItems items) v ↔
      ∃ ref, v = .list ref ∧ ref < store.lists.size ∧ store.items ref = items := by
  have hitems (others : List Value) :
      List.Forall₂ store.Holds (items.map .value) others ↔ others = items := by
    rw [List.forall₂_map_left_iff, eq_comm, ← List.forall₂_eq_eq_eq]
    simp [eq_comm]
  simp only [Draft.ofItems, holds_list_iff, hitems]

namespace HoldsEntries

/-- No entries stand for no drafts: `store.HoldsEntries [] entries ↔ entries = []`. -/
@[simp] theorem nil_iff {entries : Entries} : store.HoldsEntries [] entries ↔ entries = [] :=
  List.forall₂_nil_left_iff

/-- Entries stand for drafts when the first has the same key and a value that stands for the draft,
and the others stand for the others. -/
@[simp] theorem cons_iff {key : Scalar} {draft : Draft} {drafts : List (Scalar × Draft)}
    {entries : Entries} : store.HoldsEntries ((key, draft) :: drafts) entries ↔
      ∃ v rest, entries = (key, v) :: rest ∧ store.Holds draft v ∧ store.HoldsEntries drafts rest := by
  constructor
  · rintro (_ | ⟨⟨rfl, hfirst⟩, hrest⟩)
    exact ⟨_, _, rfl, hfirst, hrest⟩
  · rintro ⟨v, rest, rfl, hfirst, hrest⟩
    exact .cons ⟨rfl, hfirst⟩ hrest

/-- Entries that stand for drafts behind others are such entries behind others. -/
theorem append_iff {first second : List (Scalar × Draft)} {entries : Entries} :
    store.HoldsEntries (first ++ second) entries ↔ ∃ entries₁ entries₂,
      entries = entries₁ ++ entries₂ ∧ store.HoldsEntries first entries₁ ∧
        store.HoldsEntries second entries₂ := by
  induction first generalizing entries with
  | nil => simp
  | cons draft first ih =>
    obtain ⟨key, draft⟩ := draft
    simp only [List.cons_append, cons_iff, ih]
    constructor
    · rintro ⟨v, _, rfl, hfirst, entries₁, entries₂, rfl, h₁, h₂⟩
      exact ⟨_, entries₂, rfl, ⟨v, entries₁, rfl, hfirst, h₁⟩, h₂⟩
    · rintro ⟨_, entries₂, rfl, ⟨v, entries₁, rfl, hfirst, h₁⟩, h₂⟩
      exact ⟨v, _, rfl, hfirst, entries₁, entries₂, rfl, h₁, h₂⟩

/-- An optional field that is held is an optional field. -/
theorem optional_iff {name : String} {draft : Option Draft} {entries : Entries} :
    store.HoldsEntries (Draft.optional name draft) entries ↔ ∃ v,
      entries = Entries.optional name v ∧ Option.Rel store.Holds draft v := by
  cases draft with
  | none =>
    constructor
    · intro h
      exact ⟨none, nil_iff.mp h, .none⟩
    · rintro ⟨v, rfl, ⟨⟩⟩
      exact .nil
  | some draft =>
    constructor
    · intro h
      obtain ⟨v, rest, rfl, hv, hrest⟩ := cons_iff.mp h
      rw [nil_iff.mp hrest]
      exact ⟨some v, rfl, .some hv⟩
    · rintro ⟨v, rfl, hv⟩
      cases hv with
      | some hv => exact .cons ⟨rfl, hv⟩ .nil

end HoldsEntries

/-! ## The places of maps -/

mutual

/-- **The places of the maps** that stand for a draft, each as often as it stands for a part of
it. -/
def mapsOf (store : Store) : Draft → Value → Multiset Nat
  | .list items, .list ref => store.mapsOfItems items (store.items ref)
  | .map entries, .map ref => {ref} + store.mapsOfEntries entries (store.entries ref)
  | _, _ => 0

/-- The places of the maps that stand for the items of a list. -/
def mapsOfItems (store : Store) : List Draft → List Value → Multiset Nat
  | draft :: drafts, v :: values => store.mapsOf draft v + store.mapsOfItems drafts values
  | _, _ => 0

/-- The places of the maps that stand for the entries of a map. -/
def mapsOfEntries (store : Store) : List (Scalar × Draft) → Entries → Multiset Nat
  | (_, draft) :: drafts, (_, v) :: entries => store.mapsOf draft v + store.mapsOfEntries drafts entries
  | _, _ => 0

end

/-- A value that is referred to as it is adds no maps: `store.mapsOf (.value v) w = 0`. -/
@[simp] theorem mapsOf_value (v w : Value) : store.mapsOf (.value v) w = 0 := by
  simp [mapsOf]

/-- The maps of entries are those of their values. -/
theorem mapsOfEntries_eq (drafts : List (Scalar × Draft)) (entries : Entries) :
    store.mapsOfEntries drafts entries
      = store.mapsOfItems (drafts.map (·.2)) (entries.map (·.2)) := by
  induction drafts generalizing entries with
  | nil => simp [mapsOfEntries, mapsOfItems]
  | cons draft drafts ih =>
    obtain _ | ⟨entry, entries⟩ := entries
    · simp [mapsOfEntries, mapsOfItems]
    · simp [mapsOfEntries, mapsOfItems, ih]

/-- The maps of entries behind others are those of both. -/
theorem mapsOfEntries_append {first second : List (Scalar × Draft)} {entries₁ entries₂ : Entries}
    (h : store.HoldsEntries first entries₁) :
    store.mapsOfEntries (first ++ second) (entries₁ ++ entries₂)
      = store.mapsOfEntries first entries₁ + store.mapsOfEntries second entries₂ := by
  induction h with
  | nil => simp [mapsOfEntries]
  | @cons draft entry _ _ _ _ ih =>
    obtain ⟨key, draft⟩ := draft
    obtain ⟨key', v⟩ := entry
    simp only [List.cons_append, mapsOfEntries, ih, add_assoc]

end Store

/-! ## Drafts of the parts of an element -/

/-- The draft of a type: nothing, the name of its kind, or a map with the references. -/
def ValueType.draft : Option ValueType → Draft
  | none => .value .null
  | some type =>
    if type.isReference then
      .ofEntries ((.text "kind", .text type.kind.name)
        :: (Entries.optional "class" type.classReference
          ++ Entries.optional "signature" type.signatureReference))
    else .value (.text type.kind.name)

/-- The draft of flags: the list of their names. -/
def Flags.draft (flags : Flags) : Draft := .ofItems (flags.names.map .text)

/-- The draft of a constant. -/
def Constant.draft (constant : Constant) : Draft :=
  .ofEntries [(.text "kind", .text constant.kind.name), (.text "value", .scalar constant.value)]

/-- The draft of a parameter. -/
def Signature.parameterDraft (parameter : Value × Option ValueType) : Draft :=
  .map [(.text "name", .value parameter.1), (.text "type", ValueType.draft parameter.2)]

/-- The draft of a signature, with a name for every parameter. -/
def Signature.draft (signature : Signature) : Draft :=
  .map [(.text "parameters", .list ((signature.names.zip signature.parameterTypes).map
      Signature.parameterDraft)),
    (.text "return_type", ValueType.draft signature.returnType)]

/-- The draft of a member map, given those of its elements. -/
def Members.draft (below : Handle → Draft) (members : Members) : Draft :=
  .map (members.map fun entry => (entry.1, below entry.2))

/-- The fields of a body, given the drafts of what it refers to. -/
def Body.draft (below : Handle → Draft) : Body → List (Scalar × Draft)
  | .global type constant => (.text "type", ValueType.draft type)
      :: Draft.optional "constant" (constant.map Constant.draft)
  | .enumValue value => [(.text "value", .value (.scalar value))]
  | .function signature => [(.text "signature", signature.draft)]
  | .functionPrototype instances | .classPrototype instances =>
    [(.text "instances", .list (instances.map below))]
  | .classType links | .interfaceType links =>
    Draft.optional "base" (links.base.map below)
      ++ Draft.optional "static_members" (links.staticMembers.map (Members.draft below))
      ++ Draft.optional "instance_members" (links.instanceMembers.map (Members.draft below))
  | .enumeration | .nameSpace => []

/-- **The fields of an element**, given the drafts of what it refers to. -/
def Element.draft (below : Handle → Draft) (element : Element) : List (Scalar × Draft) :=
  [(.text "kind", .value (.text element.kind.name)), (.text "name", .value element.name)]
    ++ Draft.optional "flags" (if element.flags.names = [] then none else some element.flags.draft)
    ++ element.body.draft below
    ++ Draft.optional "members" (element.members.map (Members.draft below))

/-- The draft of the root of a document, given those of the exported elements. -/
def Graph.rootDraft (below : Handle → Draft) (graph : Graph) : Draft :=
  .map [(.text "is_64bit", .value (.bool graph.is64Bit)),
    (.text "exports", graph.exports.draft below)]

/-! ## Drafts of what is referred to -/

section Below

variable {below below' : Handle → Draft}

/-- The draft of a member map depends on the drafts of its members only:
`members.draft below = members.draft below'`. -/
theorem Members.draft_congr {members : Members} (h : ∀ a ∈ members.map (·.2), below a = below' a) :
    members.draft below = members.draft below' := by
  refine congrArg Draft.map (List.map_congr_left fun entry hentry => ?_)
  rw [h entry.2 (List.mem_map_of_mem hentry)]

/-- So does the draft of a member map that may be missing. -/
theorem Members.map_draft_congr {members : Option Members}
    (h : ∀ a ∈ (members.getD []).map (·.2), below a = below' a) :
    members.map (Members.draft below) = members.map (Members.draft below') := by
  cases members with
  | none => rfl
  | some members => exact congrArg some (draft_congr h)

/-- The draft of a body depends on the drafts of its `links` only. -/
theorem Body.draft_congr {body : Body} (h : ∀ a ∈ body.links, below a = below' a) :
    body.draft below = body.draft below' := by
  cases body with
  | functionPrototype instances | classPrototype instances =>
    have hinstances : instances.map below = instances.map below' := List.map_congr_left h
    rw [draft, draft, hinstances]
  -- a class refers to its base and to the members of two maps
  | classType links | interfaceType links =>
    simp only [Body.links, List.mem_append, Option.mem_toList] at h
    rw [draft, draft, Option.map_congr fun a ha => h a (.inl (.inl ha)),
      Members.map_draft_congr fun a ha => h a (.inl (.inr ha)),
      Members.map_draft_congr fun a ha => h a (.inr ha)]
  | _ => rfl

/-- The draft of an element depends on the drafts of its `successors` only. -/
theorem Element.draft_congr {element : Element} (h : ∀ a ∈ element.successors, below a = below' a) :
    element.draft below = element.draft below' := by
  simp only [successors, List.mem_append] at h
  rw [draft, draft, Body.draft_congr fun a ha => h a (.inr ha),
    Members.map_draft_congr fun a ha => h a (.inl ha)]

namespace Store

variable {store : Store}

/-- **Every value that stands for a draft** stands for another one as well. -/
def Refines (store : Store) (draft draft' : Draft) : Prop :=
  ∀ v, store.Holds draft v → store.Holds draft' v

/-- All entries that stand for some fields stand for other ones as well. -/
def RefinesFields (store : Store) (fields fields' : List (Scalar × Draft)) : Prop :=
  ∀ entries, store.HoldsEntries fields entries → store.HoldsEntries fields' entries

namespace RefinesFields

variable {fields fields' others others' : List (Scalar × Draft)}

/-- Fields refine themselves. -/
theorem refl (fields : List (Scalar × Draft)) : store.RefinesFields fields fields :=
  fun _ h => h

/-- Fields refine fields behind others when both do. -/
theorem append (h : store.RefinesFields fields fields') (h' : store.RefinesFields others others') :
    store.RefinesFields (fields ++ others) (fields' ++ others') := by
  intro entries hentries
  obtain ⟨entries₁, entries₂, rfl, h₁, h₂⟩ := HoldsEntries.append_iff.mp hentries
  exact HoldsEntries.append_iff.mpr ⟨_, _, rfl, h entries₁ h₁, h' entries₂ h₂⟩

/-- A field refines a field of its key when its draft does. -/
theorem cons {draft draft' : Draft} (key : Scalar) (h : store.Refines draft draft')
    (h' : store.RefinesFields fields fields') :
    store.RefinesFields ((key, draft) :: fields) ((key, draft') :: fields') := by
  intro entries hentries
  obtain ⟨v, rest, rfl, hv, hrest⟩ := HoldsEntries.cons_iff.mp hentries
  exact HoldsEntries.cons_iff.mpr ⟨v, rest, rfl, h v hv, h' rest hrest⟩

/-- A map refines a map when its fields do. -/
theorem map (h : store.RefinesFields fields fields') : store.Refines (.map fields) (.map fields') := by
  intro v hv
  obtain ⟨ref, rfl, inside, hentries⟩ := holds_map_iff.mp hv
  exact holds_map_iff.mpr ⟨ref, rfl, inside, h _ hentries⟩

/-- An optional field. -/
theorem optional {α : Type} (name : String) {a : Option α} {draft draft' : α → Draft}
    (h : ∀ b ∈ a, store.Refines (draft b) (draft' b)) :
    store.RefinesFields (Draft.optional name (a.map draft)) (Draft.optional name (a.map draft')) := by
  cases a with
  | none => exact .refl _
  | some a => exact .cons _ (h a rfl) (.refl [])

/-- A member map. -/
theorem members {members : Members}
    (h : ∀ a ∈ members.map (·.2), store.Refines (below a) (below' a)) :
    store.Refines (members.draft below) (members.draft below') := by
  refine map ?_
  induction members with
  | nil => exact .refl _
  | cons entry members ih =>
    exact .cons _ (h entry.2 List.mem_cons_self) (ih fun a ha => h a (List.mem_cons_of_mem _ ha))

/-- A member map that may be missing refines one when the drafts of the members do. -/
theorem optionalMembers (name : String) {members : Option Members}
    (h : ∀ a ∈ (members.getD []).map (·.2), store.Refines (below a) (below' a)) :
    store.RefinesFields (Draft.optional name (members.map (Members.draft below)))
      (Draft.optional name (members.map (Members.draft below'))) := by
  refine optional name fun given hgiven => RefinesFields.members ?_
  rw [Option.mem_def.mp hgiven] at h
  exact h

end RefinesFields

/-- A list refines a list when the drafts of its items do. -/
theorem refines_list {handles : List Handle}
    (h : ∀ a ∈ handles, store.Refines (below a) (below' a)) :
    store.Refines (.list (handles.map below)) (.list (handles.map below')) := by
  intro v hv
  obtain ⟨ref, rfl, inside, each⟩ := holds_list_iff.mp hv
  rw [List.forall₂_map_left_iff] at each
  refine .list inside (List.forall₂_map_left_iff.mpr (forall₂_imp_of_mem each ?_))
  exact fun a ha w hw => h a ha w hw

/-- The draft of a body refines one when the drafts of its `links` do. -/
theorem refines_body {body : Body} (h : ∀ a ∈ body.links, store.Refines (below a) (below' a)) :
    store.RefinesFields (body.draft below) (body.draft below') := by
  cases body with
  | functionPrototype instances | classPrototype instances =>
    exact .cons _ (refines_list h) (.refl [])
  | classType links | interfaceType links =>
    simp only [Body.links, List.mem_append, Option.mem_toList] at h
    exact .append (.append (.optional _ fun a ha => h a (.inl (.inl ha)))
      (.optionalMembers _ fun a ha => h a (.inl (.inr ha))))
      (.optionalMembers _ fun a ha => h a (.inr ha))
  | _ => exact .refl _

/-- **What stands for the draft of an element** stands for another, `element.draft below'`, when
that is so for the drafts of what it refers to. -/
theorem refines_element {element : Element}
    (h : ∀ a ∈ element.successors, store.Refines (below a) (below' a)) :
    store.RefinesFields (element.draft below) (element.draft below') := by
  simp only [Element.successors, List.mem_append] at h
  exact .append (.append (.refl _) (refines_body fun a ha => h a (.inr ha)))
    (.optionalMembers _ fun a ha => h a (.inl ha))

/-- What stands for the draft of a root stands for another, `graph.rootDraft below'`, when that is
so for what is exported. -/
theorem refines_root {graph : Graph}
    (h : ∀ a ∈ graph.exports.map (·.2), store.Refines (below a) (below' a)) :
    store.Refines (graph.rootDraft below) (graph.rootDraft below') :=
  RefinesFields.map (.cons _ (fun _ hv => hv) (.cons _ (RefinesFields.members h) (.refl [])))

end Store

end Below

end ModuleSurface
