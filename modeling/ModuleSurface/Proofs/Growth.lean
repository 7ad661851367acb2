import ModuleSurface.Proofs.Spelling
import ModuleSurface.Schema.Encode

/-! # Writing adds to a store

Writing a graph adds lists and maps to its store, and fills the places that it has reserved for the
maps of the elements. Everything else stays as it is, so what has been written can be read in every
later store.

* **`Store.Grows`** — a store has grown, and only the free places have changed.
* **`Writing.Leaves`** — what a step of writing leaves behind, in every later store. -/

namespace ModuleSurface

namespace Store

/-- **A store has grown**: its lists and maps are still there, and only the maps at free places may
have changed. -/
structure Grows (free : Nat → Prop) (before after : Store) : Prop where
  lists : before.lists.size ≤ after.lists.size
  maps : before.maps.size ≤ after.maps.size
  items (ref : Nat) : ref < before.lists.size → after.items ref = before.items ref
  entries (ref : Nat) : ref < before.maps.size → ¬ free ref → after.entries ref = before.entries ref

namespace Grows

variable {free free' : Nat → Prop} {before middle after : Store}

/-- A store grows into itself. -/
theorem refl (free : Nat → Prop) (store : Store) : Grows free store store :=
  ⟨le_rfl, le_rfl, fun _ _ => rfl, fun _ _ _ => rfl⟩

/-- What grows out of a store that has grown has grown out of the first one. -/
theorem trans (h : Grows free before middle) (h' : Grows free middle after) :
    Grows free before after where
  lists := h.lists.trans h'.lists
  maps := h.maps.trans h'.maps
  items ref href := by rw [h'.items ref (href.trans_le h.lists), h.items ref href]
  entries ref href hfree := by
    rw [h'.entries ref (href.trans_le h.maps) hfree, h.entries ref href hfree]

/-- Places that a store does not have yet may count as free. -/
theorem mono (h : Grows free before after) (hfree : ∀ ref < before.maps.size, free ref → free' ref) :
    Grows free' before after where
  lists := h.lists
  maps := h.maps
  items := h.items
  entries ref href hnot := h.entries ref href fun hf => hnot (hfree ref href hf)

/-- A reference to something that is not empty is one to something in the store:
`ref < store.maps.size`. -/
theorem lt_of_entries_ne_nil {store : Store} {ref : Nat} (h : store.entries ref ≠ []) :
    ref < store.maps.size := by
  by_contra hout
  exact h (by simp [Store.entries, Array.getD_eq_getD_getElem?, Nat.le_of_not_lt hout])

/-- A reference to items that are there is one to a list of the store: `ref < store.lists.size`. -/
theorem lt_of_items_ne_nil {store : Store} {ref : Nat} (h : store.items ref ≠ []) :
    ref < store.lists.size := by
  by_contra hout
  exact h (by simp [Store.items, Array.getD_eq_getD_getElem?, Nat.le_of_not_lt hout])

/-- **What counts as true goes on counting as true**, if no place was free: `after.truthy v` follows
from `before.truthy v`. -/
theorem truthy (h : Grows (fun _ => False) before after) {v : Value}
    (hv : before.truthy v = true) : after.truthy v = true := by
  cases v with
  | scalar s => exact hv
  | list ref | pair ref =>
    simp only [Store.truthy, Bool.not_eq_true', List.isEmpty_eq_false_iff] at hv ⊢
    rwa [h.items ref (lt_of_items_ne_nil hv)]
  | map ref | set ref =>
    simp only [Store.truthy, Bool.not_eq_true', List.isEmpty_eq_false_iff] at hv ⊢
    rwa [h.entries ref (lt_of_entries_ne_nil hv) not_false]

end Grows

variable {free : Nat → Prop} (store : Store)

/-- Adding a list. -/
theorem grows_addList (items : List Value) : Grows free store (store.addList items).1 where
  lists := by simp [addList]
  maps := le_rfl
  items ref href := by
    simp [Store.items, addList, Array.getD_eq_getD_getElem?, Array.getElem?_push, href.ne]
  entries _ _ _ := rfl

/-- Adding a map. -/
theorem grows_addMap (entries : Entries) : Grows free store (store.addMap entries).1 where
  lists := le_rfl
  maps := by simp [addMap]
  items _ _ := rfl
  entries ref href _ := by
    simp [Store.entries, addMap, Array.getD_eq_getD_getElem?, Array.getElem?_push, href.ne]

/-- The list that is added has its items:
`(store.addList items).1.items store.lists.size = items`. -/
@[simp] theorem items_addList (items : List Value) :
    (store.addList items).1.items store.lists.size = items := by
  simp [Store.items, addList]

/-- The map that is added has its entries. -/
@[simp] theorem entries_addMap (entries : Entries) :
    (store.addMap entries).1.entries store.maps.size = entries := by
  simp [Store.entries, addMap]

end Store

namespace Writing

open Store (Grows)

variable {α β : Type} {free : Nat → Prop}

/-- **What a step of writing leaves behind**: the store grows, and the result is good in every later
store. The free places belong to the store already, so nothing that is added is free. -/
def Leaves (free : Nat → Prop) (write : Writing α) (good : Store → α → Prop) : Prop :=
  ∀ store : Store, (∀ ref, free ref → ref < store.maps.size) →
    Grows free store (write store).2 ∧
    ∀ later, Grows free (write store).2 later → good later (write store).1

namespace Leaves

/-- A step that writes nothing. -/
theorem pure {a : α} {good : Store → α → Prop} (h : ∀ later, good later a) :
    Leaves free (Pure.pure a : Writing α) good :=
  fun store _ => ⟨.refl free store, fun later _ => h later⟩

/-- **One step after another.** -/
theorem bind {write : Writing α} {next : α → Writing β} {good : Store → α → Prop}
    {good' : Store → β → Prop} (h : Leaves free write good)
    (h' : ∀ a, Leaves free (next a) fun later b => good later a → good' later b) :
    Leaves free (write >>= next) good' := by
  intro store hfree
  obtain ⟨hgrows, hgood⟩ := h store hfree
  have hfree' : ∀ ref, free ref → ref < (write store).2.maps.size := fun ref href =>
    (hfree ref href).trans_le hgrows.maps
  obtain ⟨hgrows', hgood'⟩ := h' (write store).1 (write store).2 hfree'
  exact ⟨hgrows.trans hgrows', fun later hlater =>
    hgood' later hlater (hgood later (hgrows'.trans hlater))⟩

/-- What is good may be said in other words. -/
theorem imp {write : Writing α} {good good' : Store → α → Prop} (h : Leaves free write good)
    (himp : ∀ later a, good later a → good' later a) : Leaves free write good' :=
  fun store hfree => ⟨(h store hfree).1, fun later hlater =>
    himp later _ ((h store hfree).2 later hlater)⟩

/-- A map that is added by `Writing.map` is there with its entries, whatever is written later. -/
theorem map (entries : Entries) : Leaves free (Writing.map entries) fun later v =>
    ∃ ref, v = .map ref ∧ ref < later.maps.size ∧ later.entries ref = entries := by
  intro store hfree
  refine ⟨store.grows_addMap entries, fun later hlater => ⟨store.maps.size, rfl, ?_, ?_⟩⟩
  · exact Nat.lt_of_lt_of_le (by simp [Writing.map, Store.addMap]) hlater.maps
  have hkept := hlater.entries store.maps.size (by simp [Writing.map, Store.addMap])
    fun h => absurd (hfree _ h) (lt_irrefl _)
  rw [hkept]
  exact store.entries_addMap entries

/-- A list that is added by `Writing.list` is there with its items, whatever is written later. -/
theorem list (items : List Value) : Leaves free (Writing.list items) fun later v =>
    ∃ ref, v = .list ref ∧ ref < later.lists.size ∧ later.items ref = items := by
  intro store _
  refine ⟨store.grows_addList items, fun later hlater => ⟨store.lists.size, rfl, ?_, ?_⟩⟩
  · exact Nat.lt_of_lt_of_le (by simp [Writing.list, Store.addList]) hlater.lists
  rw [hlater.items store.lists.size (by simp [Writing.list, Store.addList])]
  exact store.items_addList items

end Leaves

end Writing

end ModuleSurface
