import Mathlib.Data.List.Zip
import ModuleSurface.Proofs.OneParent
import ModuleSurface.Proofs.ReaderCalls
import ModuleSurface.Proofs.Respelling
import ModuleSurface.Proofs.UnsharedDocuments

/-! # Other spellings of a document

Two documents respell each other where the maps that are come to in the same way from their exports
respell each other. What is come to in the same way is at the same place; and where no map is reached
in two ways, a map is at the place of one other map.

* **`Document.SamePlace`** — what is come to in the same way in two documents.
* **`Document.Respells`** — other spellings of a document.
* **`Document.SamePlace.unique`** — places are matched one to one. -/

namespace ModuleSurface

namespace Store

/-! ## Places -/

/-- **What a map goes on to** where it inherits a name: its members, and then what its body refers to,
each with the name that it inherits. -/
def callsFrom (store : Store) (ref : Nat) (inherited : Option Value) :
    List (Value × Option Value) :=
  let entries := store.entries ref
  store.memberCalls (entries.field "members") ++
    match entries.kind? with
    | some kind => store.linkCalls (entries.nameOr inherited) entries kind
    | none => []

/-- The maps that a map goes on to do not depend on its name. -/
theorem calledMaps_callsFrom (store : Store) (ref : Nat) (inherited : Option Value) :
    calledMaps (store.callsFrom ref inherited) = store.refersTo ref := by
  rw [callsFrom, refersTo, calledMaps_append]
  cases (store.entries ref).kind? with
  | none => rfl
  | some kind => rw [calledMaps_linkCalls_name]

/-- Where every map is called on once, a pair of calls is told by its map. -/
theorem eq_of_mem_zip {calls calls' : List (Value × Option Value)} (hnodup : (calledMaps calls).Nodup)
    {pair other : (Value × Option Value) × Value × Option Value} (hpair : pair ∈ calls.zip calls')
    (hother : other ∈ calls.zip calls') {r : Nat} (hr : pair.1.1 = .map r) (hr' : other.1.1 = .map r) :
    pair = other := by
  induction calls generalizing calls' with
  | nil => exact absurd hpair List.not_mem_nil
  | cons call calls ih =>
    cases calls' with
    | nil => exact absurd hpair (by rw [List.zip_nil_right]; exact List.not_mem_nil)
    | cons call' calls' =>
      have hsplit : calledMaps (call :: calls) = calledMaps [call] ++ calledMaps calls :=
        calledMaps_append [call] calls
      rw [hsplit, List.nodup_append] at hnodup
      -- a map that is called on first is not called on behind
      have hbehind {later : (Value × Option Value) × Value × Option Value}
          (hlater : later ∈ calls.zip calls') (hmap : later.1.1 = .map r) (hfirst : call.1 = .map r) :
          False := by
        have hmem : r ∈ calledMaps calls := mem_calledMaps (List.of_mem_zip hlater).1 hmap
        exact hnodup.2.2 r (mem_calledMaps List.mem_cons_self hfirst) r hmem rfl
      rw [List.zip_cons_cons, List.mem_cons] at hpair hother
      rcases hpair with rfl | hpair
      · rcases hother with rfl | hother
        · rfl
        · exact (hbehind hother hr' hr).elim
      · rcases hother with rfl | hother
        · exact (hbehind hpair hr hr').elim
        · exact ih hnodup.2.1 hpair hother

end Store

namespace Document

variable {document document' : Document}

/-- **What is at the same place** in two documents: what is come to in the same way from their exports,
with the names that it inherits there. -/
inductive SamePlace (document document' : Document) :
    Value × Option Value → Value × Option Value → Prop
  | exported {call call' : Value × Option Value}
      (calls : (call, call') ∈ document.calls.zip document'.calls) :
      SamePlace document document' call call'
  | inside {r r' : Nat} {inherited inherited' : Option Value} {call call' : Value × Option Value}
      (outside : SamePlace document document' (.map r, inherited) (.map r', inherited'))
      (calls : (call, call') ∈
        (document.store.callsFrom r inherited).zip (document'.store.callsFrom r' inherited')) :
      SamePlace document document' call call'

namespace SamePlace

variable {call call' other other' : Value × Option Value} {r : Nat}

/-- What is at the same place is at the same place the other way round. -/
theorem symm (h : document.SamePlace document' call call') :
    document'.SamePlace document call' call := by
  induction h with
  | exported calls =>
    refine .exported ?_
    rw [← List.zip_swap]
    exact List.mem_map_of_mem calls
  | inside _ calls ih =>
    refine .inside ih ?_
    rw [← List.zip_swap]
    exact List.mem_map_of_mem calls

/-- A map at a place is reached. -/
theorem reaches (h : document.SamePlace document' call call') (hr : call.1 = .map r) :
    document.Reaches r := by
  induction h generalizing r with
  | exported calls => exact .root (Store.mem_calledMaps (List.of_mem_zip calls).1 hr)
  | @inside s s' inherited inherited' call call' _ calls ih =>
    refine .step (ih rfl) ?_
    rw [← Store.calledMaps_callsFrom document.store s inherited]
    exact Store.mem_calledMaps (List.of_mem_zip calls).1 hr

/-- **A map is at one place** where no map is reached in two ways. -/
theorem unique (hunshared : document.Unshared) (h : document.SamePlace document' call call')
    (h' : document.SamePlace document' other other') (hr : call.1 = .map r)
    (hr' : other.1 = .map r) : (call, call') = (other, other') := by
  obtain ⟨forest, hforest, hnodup⟩ := hunshared
  have hinside {call call' : Value × Option Value} {s : Nat}
      (h : document.SamePlace document' call call') (hs : call.1 = .map s) : s ∈ forest.preorder :=
    hforest.mem_preorder_iff.mpr (h.reaches hs)
  have hnext {r s : Nat} {inherited : Option Value} {call call' : Value × Option Value}
      {calls' : List (Value × Option Value)}
      (hcalls : (call, call') ∈ (document.store.callsFrom s inherited).zip calls')
      (hr : call.1 = .map r) : r ∈ document.store.refersTo s := by
    rw [← Store.calledMaps_callsFrom document.store s inherited]
    exact Store.mem_calledMaps (List.of_mem_zip hcalls).1 hr
  have hroot {r : Nat} {call call' : Value × Option Value}
      (hcalls : (call, call') ∈ document.calls.zip document'.calls) (hr : call.1 = .map r) :
      r ∈ document.exportedMaps := Store.mem_calledMaps (List.of_mem_zip hcalls).1 hr
  induction h generalizing other other' r with
  | exported calls =>
    cases h' with
    | exported calls' =>
      have hexported : document.exportedMaps.Nodup :=
        List.Nodup.of_append_left (hforest.perm.nodup_iff.mp hnodup)
      exact Store.eq_of_mem_zip hexported calls calls' hr hr'
    | inside outside calls' =>
      exact absurd (hnext calls' hr')
        (hforest.not_mem_next_of_waiting hnodup (hroot calls hr) (hinside outside rfl))
  | @inside s s' inherited inherited' call call' outside calls ih =>
    cases h' with
    | exported calls' =>
      exact absurd (hnext calls hr)
        (hforest.not_mem_next_of_waiting hnodup (hroot calls' hr') (hinside outside rfl))
    | @inside t t' given given' _ _ outside' calls' =>
      -- the map has one parent, which is at one place itself
      obtain rfl : s = t := hforest.parent_unique hnodup (hinside outside rfl) (hinside outside' rfl)
        (hnext calls hr) (hnext calls' hr')
      cases ih outside' rfl rfl
      have hcalled : (Store.calledMaps (document.store.callsFrom s inherited)).Nodup := by
        rw [Store.calledMaps_callsFrom]
        exact hforest.nodup_next hnodup (hinside outside rfl)
      exact Store.eq_of_mem_zip hcalled calls calls' hr hr'

end SamePlace

end Document

/-! ## Other spellings -/

namespace Store

section Spellings

variable (store store' : Store) (same : Value → Value → Prop)

/-- **Other spellings of a member map**: the same keys in the same order. What is under them is at the
same place. -/
inductive RespellsMembers : Value → Value → Prop
  | other {v v' : Value} (related : same v v') (plain : v.map? = none) : RespellsMembers v v'
  | map {ref ref' : Nat} (keys : List.Forall₂ (fun entry entry' : Scalar × Value =>
      entry.1.Alike entry'.1) (store.entries ref) (store'.entries ref')) :
      RespellsMembers (.map ref) (.map ref')

/-- **The items of a value** that may be left out: those of a list, and none of what counts as
false. -/
inductive SpellsItems (store : Store) : Value → List Value → Prop
  | falsy {v : Value} (false : store.truthy v = false) : SpellsItems store v []
  | list (ref : Nat) : SpellsItems store (.list ref) (store.items ref)

/-- **Other spellings of the instances** of a prototype: as many of them. -/
inductive RespellsInstances (v v' : Value) : Prop
  | other (related : same v v') (plain : ∀ ref, v ≠ .list ref)
  | items {items items' : List Value} (spells : store.SpellsItems v items)
      (spells' : store'.SpellsItems v' items') (length : items.length = items'.length)

/-- **Other spellings of what an element of a kind refers to.** -/
def RespellsLinks (entries entries' : Entries) : ElementKind → Prop
  | .functionPrototype | .classPrototype =>
    RespellsInstances store store' same (entries.field "instances") (entries'.field "instances")
  | .classType | .interfaceType =>
    (entries'.field "base" = .null ↔ entries.field "base" = .null) ∧
      RespellsMembers store store' same (entries.field "static_members")
        (entries'.field "static_members") ∧
      RespellsMembers store store' same (entries.field "instance_members")
        (entries'.field "instance_members")
  | _ => True

/-- **Other spellings of a map** of an element, where it inherits a name. A field that is not there is
one that holds nothing, and other fields than those of its kind do not matter. -/
structure RespellsMap (ref ref' : Nat) (inherited inherited' : Option Value) : Prop where
  head : RespellsHead store store' same (store.entries ref) (store'.entries ref') inherited inherited'
  members : RespellsMembers store store' same ((store.entries ref).field "members")
    ((store'.entries ref').field "members")
  links (kind : ElementKind) : (store.entries ref).kind? = some kind →
    RespellsLinks store store' same (store.entries ref) (store'.entries ref') kind

/-- **Other spellings of an element**, which is read from a map or not at all. -/
inductive RespellsElement : Value × Option Value → Value × Option Value → Prop
  | other {call call' : Value × Option Value} (related : same call.1 call'.1)
      (plain : call.1.map? = none) : RespellsElement call call'
  | map {ref ref' : Nat} {inherited inherited' : Option Value}
      (maps : RespellsMap store store' same ref ref' inherited inherited') :
      RespellsElement (.map ref, inherited) (.map ref', inherited')

/-- **Other spellings of exports**: the same keys in the same order. -/
inductive RespellsExports (v v' : Value) : Prop
  | other (related : same v v') (plain : v.map? = none)
  | fields {entries entries' : Entries} (spells : store.SpellsFields v entries)
      (spells' : store'.SpellsFields v' entries')
      (keys : List.Forall₂ (fun entry entry' : Scalar × Value => entry.1.Alike entry'.1) entries
        entries')

/-- **Other spellings of a root.** -/
inductive RespellsRoot : Value → Value → Prop
  | other {v v' : Value} (related : same v v') (plain : v.map? = none) : RespellsRoot v v'
  | map {ref ref' : Nat}
      (exports : RespellsExports store store' same ((store.entries ref).field "exports")
        ((store'.entries ref').field "exports"))
      (width : same (((store.entries ref).field? "is_64bit").getD (.bool false))
        (((store'.entries ref').field? "is_64bit").getD (.bool false))) :
      RespellsRoot (.map ref) (.map ref')

end Spellings

end Store

/-- **Other spellings of a document**, along a relation of the data that is the same: its root and all
that is at the same place respell each other. -/
structure Document.Respells (document document' : Document) (same : Value → Value → Prop) :
    Prop where
  corresponds : document.store.Corresponds document'.store same
  root : document.store.RespellsRoot document'.store same document.root document'.root
  places {call call' : Value × Option Value} : document.SamePlace document' call call' →
    document.store.RespellsElement document'.store same call call'

end ModuleSurface
