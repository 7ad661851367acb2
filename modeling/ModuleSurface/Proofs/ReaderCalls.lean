import ModuleSurface.Proofs.FirstVisits

/-! # What readers do depends on their calls

The parts of an element are read with a reader of elements, which is called on the values that a part
refers to. So where two readers do related things on these values, reading the part with the one and
with the other are related, for every relation between steps of reading that lasts from one step to
the next.

* **`Reading.Congruent`** — such a relation.
* **`Reading.Congruent.readMembers`**, **`Reading.Congruent.readLinks`**,
  **`Reading.Congruent.readExportsBy`** — the parts of an element, and the exports of a root. -/

namespace ModuleSurface

namespace Store

/-- A map that is called on. -/
theorem mem_calledMaps {calls : List (Value × Option Value)} {call : Value × Option Value}
    (h : call ∈ calls) {r : Nat} (hr : call.1 = .map r) : r ∈ calledMaps calls :=
  List.mem_filterMap.mpr ⟨call, h, by rw [hr]; rfl⟩

/-- Reading the exports of a graph with a reader of elements. -/
def readExportsBy (store : Store) (reader : ElementReader) (v : Value) : Reading Members :=
  if !store.truthy v then return []
  else
    match v with
    | .map ref => readEntries reader (store.entries ref)
    | v => throw (.format (.exportsNotMap v.typeName))

/-- The exports of a document are read by `readElement`, where elements nest one deeper at most than
there are maps. -/
theorem readExports_eq_by (store : Store) (v : Value) :
    store.readExports v = store.readExportsBy (store.readElement (store.maps.size + 1)) v :=
  rfl

end Store

namespace Reading

/-- An element that has to be of a sort, once it has been read. -/
def checkSort (sort : InstanceSort) (h : Handle) : Reading Handle := do
  let element ← Reading.element h
  if sort.admits element.kind then return h
  else throw (.format (.wrongInstance sort element.kind element.name))

/-- **A relation between steps of reading that lasts**: from a step and what follows it to both, for
what is read, for the faults that show no value, and for a look at an element. -/
structure Congruent (store : Store) (R : ∀ {α : Type}, Reading α → Reading α → Prop) : Prop where
  pure {α : Type} (a : α) : R (Pure.pure a) (Pure.pure a)
  throw {α : Type} {fault : FormatError} {sentence : String}
    (told : fault.message? store = some sentence) :
    R (MonadExcept.throw (.format fault) : Reading α) (MonadExcept.throw (.format fault))
  bind {α β : Type} {x y : Reading α} {f g : α → Reading β} (hx : R x y) (hf : ∀ a, R (f a) (g a)) :
    R (x >>= f) (y >>= g)
  checkSort (sort : InstanceSort) (h : Handle) : R (checkSort sort h) (checkSort sort h)

/-- Two readers do related things on all of some calls. -/
def RelatedOn (R : ∀ {α : Type}, Reading α → Reading α → Prop) (reader other : ElementReader)
    (calls : List (Value × Option Value)) : Prop :=
  ∀ call ∈ calls, R (reader call.1 call.2) (other call.1 call.2)

namespace Congruent

variable {store : Store} {R : ∀ {α : Type}, Reading α → Reading α → Prop}
  {reader other : ElementReader}

/-- **The values of a map** are read alike by readers that are related on them. -/
theorem readEntries (hR : Congruent store R) {entries : Entries}
    (h : RelatedOn R reader other (entries.map fun entry => (entry.2, some (.scalar entry.1)))) :
    R (Store.readEntries reader entries) (Store.readEntries other entries) := by
  induction entries with
  | nil => exact hR.pure []
  | cons entry entries ih =>
    rw [RelatedOn, List.map_cons, List.forall_mem_cons] at h
    exact hR.bind h.1 fun h' => hR.bind (ih h.2) fun members => hR.pure _

/-- **Members** are read alike by readers that are related on `memberCalls`. -/
theorem readMembers (hR : Congruent store R) {v : Value}
    (h : RelatedOn R reader other (store.memberCalls v)) :
    R (store.readMembers reader v) (store.readMembers other v) := by
  unfold Store.readMembers
  split
  · exact hR.pure none
  · exact hR.bind (hR.readEntries h) fun members => hR.pure _
  · exact hR.throw rfl

/-- **An instance** is read alike by readers that are related on it. -/
theorem readInstance (hR : Congruent store R) (sort : InstanceSort) {inherited : Option Value}
    {v : Value} (h : R (reader v inherited) (other v inherited)) :
    R (Store.readInstance reader sort inherited v) (Store.readInstance other sort inherited v) :=
  hR.bind h (hR.checkSort sort)

/-- The instances of a list are read alike by readers that are related on them. -/
theorem readInstanceList (hR : Congruent store R) (sort : InstanceSort) {inherited : Option Value}
    {values : List Value}
    (h : RelatedOn R reader other (values.map fun v => (v, inherited))) :
    R (Store.readInstanceList reader sort inherited values)
      (Store.readInstanceList other sort inherited values) := by
  induction values with
  | nil => exact hR.pure []
  | cons v values ih =>
    rw [RelatedOn, List.map_cons, List.forall_mem_cons] at h
    exact hR.bind (hR.readInstance sort h.1) fun h' => hR.bind (ih h.2) fun instances => hR.pure _

/-- **Instances** are read alike by readers that are related on `instanceCalls`. -/
theorem readInstances (hR : Congruent store R) (sort : InstanceSort) {name v : Value}
    (h : RelatedOn R reader other (store.instanceCalls name v)) :
    R (store.readInstances reader sort name v) (store.readInstances other sort name v) := by
  unfold Store.readInstances
  by_cases htrue : store.truthy v = true
  · rw [if_neg (by simp [htrue]), if_neg (by simp [htrue])]
    cases v with
    | list ref =>
      rw [Store.instanceCalls, if_pos htrue] at h
      exact hR.readInstanceList sort h
    | _ => exact hR.throw rfl
  · rw [if_pos (by simpa using htrue), if_pos (by simpa using htrue)]
    exact hR.pure []

/-- **A base** is read alike by readers that are related on `baseCalls`. -/
theorem readBase (hR : Congruent store R) {v : Value}
    (h : RelatedOn R reader other (Store.baseCalls v)) :
    R (Store.readBase reader v) (Store.readBase other v) := by
  unfold Store.readBase
  unfold Store.baseCalls at h
  cases hv : v.nonNull? with
  | none => exact hR.pure none
  | some given =>
    rw [hv] at h
    exact hR.bind (hR.readInstance .classLike (h _ (List.mem_singleton_self _))) fun base => hR.pure _

/-- **What the body of an element refers to** is read alike by readers that are related on
`linkCalls`. -/
theorem readLinks (hR : Congruent store R) {name : Value} {entries : Entries} {body : Body}
    (h : RelatedOn R reader other (store.linkCalls name entries body.kind)) :
    R (store.readLinks reader name entries body) (store.readLinks other name entries body) := by
  have hclass (h : RelatedOn R reader other (Store.baseCalls (entries.field "base")
      ++ store.memberCalls (entries.field "static_members")
      ++ store.memberCalls (entries.field "instance_members"))) :
      R (store.readClassLinks reader entries) (store.readClassLinks other entries) := by
    rw [RelatedOn, List.forall_mem_append, List.forall_mem_append] at h
    obtain ⟨⟨hbase, hstatics⟩, hmembers⟩ := h
    rw [Store.readClassLinks_eq, Store.readClassLinks_eq]
    exact hR.bind (hR.readBase hbase) fun base => hR.bind (hR.readMembers hstatics) fun statics =>
      hR.bind (hR.readMembers hmembers) fun members => hR.pure _
  cases body with
  | functionPrototype instances => exact hR.bind (hR.readInstances .function h) fun _ => hR.pure _
  | classPrototype instances => exact hR.bind (hR.readInstances .classLike h) fun _ => hR.pure _
  | classType links | interfaceType links => exact hR.bind (hclass h) fun _ => hR.pure _
  | _ => exact hR.pure _

/-- **The exports of a root** are read alike by readers that are related on `exportCalls`. -/
theorem readExportsBy (hR : Congruent store R) {v : Value}
    (h : RelatedOn R reader other (store.exportCalls v)) :
    R (store.readExportsBy reader v) (store.readExportsBy other v) := by
  unfold Store.readExportsBy
  by_cases htrue : store.truthy v = true
  · rw [if_neg (by simp [htrue]), if_neg (by simp [htrue])]
    rw [Store.exportCalls, if_pos htrue] at h
    cases v with
    | map ref => exact hR.readEntries h
    | _ => exact hR.throw rfl
  · rw [if_pos (by simpa using htrue), if_pos (by simpa using htrue)]
    exact hR.pure []

end Congruent

end Reading

end ModuleSurface
