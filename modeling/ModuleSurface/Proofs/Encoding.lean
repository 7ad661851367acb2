import ModuleSurface.Proofs.Drafts

/-! # What writing leaves behind

Each part of an element that is written stands for its draft in every later store, and so do the
fields in the map of the element, once the places of the maps stand for the handles.

* **`Placement.writeElement_leaves`** — the fields of an element stand for its draft.
* **`Graph.writeElements_holds`** — the reserved places hold the drafts of the elements. -/

namespace ModuleSurface

/-! ## Parts -/

namespace Writing

variable {free : Nat → Prop}

/-- A type that is written stands for `ValueType.draft`. -/
theorem writeType_leaves (type : Option ValueType) :
    Leaves free (part fun store => store.writeType type) fun later v =>
      later.Holds (ValueType.draft type) v := by
  cases type with
  | none => exact .pure fun later => .value .null
  | some type =>
    by_cases hreference : type.isReference = true
    · -- a type with references is a map
      have hpart : (part fun store => store.writeType (some type)) = Writing.map
          ((.text "kind", .text type.kind.name)
            :: (Entries.optional "class" type.classReference
              ++ Entries.optional "signature" type.signatureReference)) := by
        funext store
        simp [part, Store.writeType, hreference, Writing.map, Entries.optional]
      rw [hpart]
      refine (Leaves.map _).imp fun later v hv => ?_
      rwa [ValueType.draft, if_pos hreference, Store.holds_ofEntries_iff]
    · have hpart : (part fun store => store.writeType (some type))
          = Pure.pure (.text type.kind.name) := by
        funext store
        simp [part, Store.writeType, hreference]
        rfl
      rw [hpart]
      refine .pure fun later => ?_
      rw [ValueType.draft, if_neg hreference, Store.holds_value_iff]

/-- Flags that are written stand for `Flags.draft`. -/
theorem writeFlags_leaves (flags : Flags) :
    Leaves free (part fun store => store.writeFlags flags) fun later v =>
      later.Holds flags.draft v :=
  (Leaves.list (flags.names.map Value.text)).imp fun _ _ hv => Store.holds_ofItems_iff.mpr hv

/-- A constant that is written stands for `Constant.draft`. -/
theorem writeConstant_leaves (constant : Constant) :
    Leaves free (part fun store => store.writeConstant constant) fun later v =>
      later.Holds constant.draft v :=
  (Leaves.map [(.text "kind", .text constant.kind.name), (.text "value", .scalar constant.value)]).imp
    fun _ _ hv => Store.holds_ofEntries_iff.mpr hv

/-- The maps of parameters that are written stand for `Signature.parameterDraft` of each. -/
theorem writeParameters_leaves (parameters : List (Value × Option ValueType)) :
    Leaves free (fun store =>
        ((store.writeParameters parameters).2, (store.writeParameters parameters).1))
      fun later maps => List.Forall₂ later.Holds (parameters.map Signature.parameterDraft) maps := by
  induction parameters with
  | nil => exact .pure fun later => .nil
  | cons parameter parameters ih =>
    obtain ⟨name, type⟩ := parameter
    have hsteps : (fun store : Store => ((store.writeParameters ((name, type) :: parameters)).2,
        (store.writeParameters ((name, type) :: parameters)).1)) = (do
          let type ← part fun store => store.writeType type
          let first ← Writing.map [(.text "name", name), (.text "type", type)]
          let others ← (fun store =>
            ((store.writeParameters parameters).2, (store.writeParameters parameters).1))
          return first :: others : Writing (List Value)) := rfl
    rw [hsteps]
    refine .bind (writeType_leaves type) fun v => ?_
    refine .bind (Leaves.map _) fun first => ?_
    refine .bind ih fun others => ?_
    refine .pure fun later hothers hfirst htype => .cons ?_ hothers
    obtain ⟨ref, rfl, inside, hentries⟩ := hfirst
    refine Store.holds_map_iff.mpr ⟨ref, rfl, inside, ?_⟩
    simp [hentries, htype]

/-- A signature that is written stands for `Signature.draft`. -/
theorem writeSignature_leaves (signature : Signature) :
    Leaves free (part fun store => store.writeSignature signature) fun later v =>
      later.Holds signature.draft v := by
  have hsteps : (part fun store => store.writeSignature signature) = (do
      let maps ← (fun store => ((store.writeParameters (signature.names.zip
        signature.parameterTypes)).2, (store.writeParameters (signature.names.zip
        signature.parameterTypes)).1) : Writing (List Value))
      let parameters ← Writing.list maps
      let result ← part fun store => store.writeType signature.returnType
      Writing.map [(.text "parameters", parameters), (.text "return_type", result)]) := rfl
  rw [hsteps]
  refine .bind (writeParameters_leaves _) fun maps => ?_
  refine .bind (Leaves.list _) fun parameters => ?_
  refine .bind (writeType_leaves signature.returnType) fun result => ?_
  refine (Leaves.map _).imp ?_
  rintro later v ⟨ref, rfl, inside, hentries⟩ hresult ⟨lref, rfl, hlist, hitems⟩ hmaps
  refine Store.holds_map_iff.mpr ⟨ref, rfl, inside, ?_⟩
  rw [hentries, Store.HoldsEntries.cons_iff]
  refine ⟨_, _, rfl, .list hlist ?_, by simpa using hresult⟩
  rwa [hitems]

end Writing

/-! ## Elements -/

namespace Placement

open Writing (Leaves)

variable {free : Nat → Prop} (place : Placement)

/-- The drafts of what an element refers to when the maps have their places. -/
def below (h : Handle) : Draft := .value (place h)

/-- A member map that is written stands for `Members.draft`. -/
theorem writeMembers_leaves (members : Members) :
    Leaves free (place.writeMembers members) fun later v =>
      later.Holds (members.draft place.below) v := by
  have hdraft : members.draft place.below
      = .ofEntries (members.map fun entry => (entry.1, place entry.2)) := by
    simp [Members.draft, Draft.ofEntries, below]
  rw [hdraft]
  exact (Leaves.map _).imp fun later v hv => Store.holds_ofEntries_iff.mpr hv

/-- An optional field that is written. -/
theorem writeOptional_leaves {α : Type} (name : String) {a : Option α} {write : α → Writing Value}
    {draft : α → Draft} (h : ∀ a, Leaves free (write a) fun later v => later.Holds (draft a) v) :
    Leaves free (writeOptional name (a.map write)) fun later entries =>
      later.HoldsEntries (Draft.optional name (a.map draft)) entries := by
  cases a with
  | none => exact .pure fun later => .nil
  | some a =>
    refine .bind (h a) fun v => ?_
    exact .pure fun later hv => .cons ⟨rfl, hv⟩ .nil

/-- **The fields of a body** stand for `Body.draft`. -/
theorem writeBody_leaves (body : Body) :
    Leaves free (place.writeBody body) fun later entries =>
      later.HoldsEntries (body.draft place.below) entries := by
  cases body with
  | global type constant =>
    refine .bind (Writing.writeType_leaves type) fun v => ?_
    refine .bind (writeOptional_leaves "constant" Writing.writeConstant_leaves) fun entries => ?_
    exact .pure fun later hconstant htype => .cons ⟨rfl, htype⟩ hconstant
  | enumValue value => exact .pure fun later => .cons ⟨rfl, .value _⟩ .nil
  | function signature =>
    refine .bind (Writing.writeSignature_leaves signature) fun v => ?_
    exact .pure fun later hsignature => .cons ⟨rfl, hsignature⟩ .nil
  | functionPrototype instances | classPrototype instances =>
    refine .bind (Leaves.list _) fun v => ?_
    refine .pure fun later hv => .cons ⟨rfl, ?_⟩ .nil
    have hdraft : Draft.list (instances.map place.below) = .ofItems (instances.map place) := by
      simp [Draft.ofItems, below]
    rw [hdraft]
    exact Store.holds_ofItems_iff.mpr hv
  | classType links | interfaceType links =>
    refine .bind (writeOptional_leaves "static_members" place.writeMembers_leaves) fun statics => ?_
    refine .bind (writeOptional_leaves "instance_members" place.writeMembers_leaves) fun members => ?_
    refine .pure fun later hmembers hstatics => ?_
    refine Store.HoldsEntries.append_iff.mpr ⟨_, _, rfl, Store.HoldsEntries.append_iff.mpr
      ⟨_, _, rfl, ?_, hstatics⟩, hmembers⟩
    cases links.base with
    | none => exact .nil
    | some base => exact .cons ⟨rfl, .value _⟩ .nil
  | enumeration | nameSpace => exact .pure fun later => .nil

/-- **The fields of an element** stand for `Element.draft`. -/
theorem writeElement_leaves (element : Element) :
    Leaves free (place.writeElement element) fun later entries =>
      later.HoldsEntries (element.draft place.below) entries := by
  have hflags : Leaves free (writeOptional "flags" (if element.flags.names = [] then none
      else some (Writing.part fun store => store.writeFlags element.flags))) fun later entries =>
        later.HoldsEntries (Draft.optional "flags" (if element.flags.names = [] then none
          else some element.flags.draft)) entries := by
    split
    · exact .pure fun later => .nil
    · exact writeOptional_leaves (a := some element.flags) "flags" Writing.writeFlags_leaves
  refine .bind hflags fun flags => ?_
  refine .bind (place.writeBody_leaves element.body) fun body => ?_
  refine .bind (writeOptional_leaves "members" place.writeMembers_leaves) fun members => ?_
  refine .pure fun later hmembers hbody hflags => ?_
  refine Store.HoldsEntries.append_iff.mpr ⟨_, _, rfl, Store.HoldsEntries.append_iff.mpr
    ⟨_, _, rfl, ?_, hbody⟩, hmembers⟩
  exact .cons ⟨rfl, .value _⟩ (.cons ⟨rfl, .value _⟩ hflags)

end Placement

namespace Graph

open Store (Grows)

/-- The places that follow each other from one place on. -/
def From (first count ref : Nat) : Prop := first ≤ ref ∧ ref < first + count

/-- Filling the place of a map. -/
theorem grows_fill {store : Store} {ref : Nat} {free : Nat → Prop} (hfree : free ref)
    (entries : Entries) : Grows free store (Writing.fill ref entries store).2 where
  lists := le_rfl
  maps := by simp [Writing.fill]
  items _ _ := rfl
  entries other hother hnot := by
    have hne : ref ≠ other := fun h => hnot (h ▸ hfree)
    simp [Store.entries, Writing.fill, Array.getD_eq_getD_getElem?,
      Array.getElem?_setIfInBounds_ne hne]

/-- A place that is filled has the entries that it is filled with:
`(Writing.fill ref entries store).2.entries ref = entries`. -/
theorem entries_fill {store : Store} {ref : Nat} (href : ref < store.maps.size)
    (entries : Entries) : (Writing.fill ref entries store).2.entries ref = entries := by
  simp [Store.entries, Writing.fill, Array.getD_eq_getD_getElem?, href]

/-- **The maps of elements**, written into places that follow each other, stand for their drafts.
While one of them is written, its place and those behind it are free. -/
theorem writeElements_holds (graph : Graph) (place : Placement) {order : List Handle} (ref : Nat)
    {store : Store} (hroom : ref + order.length ≤ store.maps.size) :
    Grows (From ref order.length) store
        (graph.writeElements place ref order store).2 ∧
      ∀ later, Grows (fun _ => False)
          (graph.writeElements place ref order store).2 later →
        ∀ (i : Nat) (h : Handle), order[i]? = some h →
          later.HoldsEntries ((graph.element h).draft place.below) (later.entries (ref + i)) := by
  induction order generalizing ref store with
  | nil => exact ⟨.refl _ store, fun later _ i h hi => absurd hi (by simp)⟩
  | cons h order ih =>
    rw [List.length_cons] at hroom ⊢
    have hwrite : Writing.Leaves (From ref (order.length + 1)) _ _ :=
      place.writeElement_leaves (graph.element h)
    obtain ⟨hgrows, hgood⟩ := hwrite store fun r hr => hr.2.trans_le hroom
    generalize hrun : Placement.writeElement place (graph.element h) store
      = wrote at hgrows hgood
    obtain ⟨entries, middle⟩ := wrote
    have hsteps : graph.writeElements place ref (h :: order) store
        = graph.writeElements place (ref + 1) order
          (Writing.fill ref entries middle).2 := by
      show graph.writeElements _ (ref + 1) order (Writing.fill ref
        (Placement.writeElement _ _ store).1 (Placement.writeElement _ _ store).2).2 = _
      rw [hrun]
    -- the place of the first map is filled, and the later maps do not touch it
    have hfilled : Grows (From ref (order.length + 1)) middle (Writing.fill ref entries middle).2 :=
      grows_fill ⟨le_rfl, by omega⟩ entries
    have hroom' : ref + 1 + order.length ≤ (Writing.fill ref entries middle).2.maps.size := by
      have := hgrows.maps
      have := hfilled.maps
      simp only at *
      omega
    obtain ⟨hrest, hholds⟩ := ih (ref + 1) hroom'
    rw [hsteps]
    have hrest' : Grows (From ref (order.length + 1)) _ _ := hrest.mono fun r _ hr =>
      ⟨by have := hr.1; omega, by have := hr.2; omega⟩
    refine ⟨hgrows.trans (hfilled.trans hrest'), fun later hlater i a hi => ?_⟩
    -- the first entry is the map just filled, the others come from the induction
    cases i with
    | zero =>
      obtain rfl : h = a := by simpa using hi
      have hentries : later.entries ref = entries := by
        have hplace : ref < middle.maps.size := by
          have := hgrows.maps
          simp only at this
          omega
        rw [hlater.entries ref _ not_false, hrest.entries ref _ (fun hr => absurd hr.1 (by omega)),
          entries_fill hplace]
        · exact hplace.trans_le hfilled.maps
        · exact hplace.trans_le (hfilled.trans hrest').maps
      rw [Nat.add_zero, hentries]
      exact hgood later (hfilled.trans (hrest'.trans (hlater.mono fun _ _ h => h.elim)))
    | succ i =>
      rw [show ref + (i + 1) = ref + 1 + i by omega]
      exact hholds later hlater i a (by simpa using hi)

end Graph

end ModuleSurface
