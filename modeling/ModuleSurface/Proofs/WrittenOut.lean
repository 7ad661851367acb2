import Mathlib.Data.Finset.Card
import Mathlib.Data.Finset.Union
import ModuleSurface.Proofs.Drafts

/-! # Drafts written out in full

A draft of which all values are scalars is a tree. The value that stands for it is written out as
this tree, and a store to which the tree is added has a value that stands for it again. All maps that
are added are new ones, so what was shared is not shared any more.

* **`Draft.Every`** — a draft of scalars, with what is known of the scalars and the keys.
* **`Store.Holds.unfold`** — what stands for such a draft is written out as its tree.
* **`Draft.addTo_adds`** — a tree that is added stands for its draft, on maps of its own. -/

namespace ModuleSurface

namespace Draft

mutual

/-- **The tree of a draft**, where its values are scalars. -/
def tree : Draft → Tree
  | .value (.scalar s) => .scalar s
  | .value _ => .scalar .null
  | .list items => .list (treeItems items)
  | .map entries => .map (treeEntries entries)

/-- The trees of the items of a list. -/
def treeItems : List Draft → List Tree
  | [] => []
  | draft :: drafts => tree draft :: treeItems drafts

/-- The trees of the entries of a map. -/
def treeEntries : List (Scalar × Draft) → List (Scalar × Tree)
  | [] => []
  | (key, draft) :: drafts => (key, tree draft) :: treeEntries drafts

end

mutual

/-- How deep lists and maps nest in a draft. -/
def height : Draft → Nat
  | .value _ => 0
  | .list items => heightItems items + 1
  | .map entries => heightEntries entries + 1

/-- How deep they nest in the items of a list. -/
def heightItems : List Draft → Nat
  | [] => 0
  | draft :: drafts => max (height draft) (heightItems drafts)

/-- How deep they nest in the entries of a map. -/
def heightEntries : List (Scalar × Draft) → Nat
  | [] => 0
  | (_, draft) :: drafts => max (height draft) (heightEntries drafts)

end

/-- The trees of items are those of each: `treeItems items = items.map tree`. -/
theorem treeItems_eq (items : List Draft) : treeItems items = items.map tree := by
  induction items with
  | nil => simp [treeItems]
  | cons draft drafts ih => simp [treeItems, ih]

/-- The trees of entries are those of their values, under the same keys. -/
theorem treeEntries_eq (entries : List (Scalar × Draft)) :
    treeEntries entries = entries.map fun entry => (entry.1, entry.2.tree) := by
  induction entries with
  | nil => simp [treeEntries]
  | cons entry entries ih => simp [treeEntries, ih]

/-- The tree of a scalar is the scalar: `tree (.value (.scalar s)) = .scalar s`. -/
@[simp] theorem tree_scalar (s : Scalar) : tree (.value (.scalar s)) = .scalar s := by
  simp [tree]

/-- The tree of a list is the list of the trees: `tree (.list items) = .list (items.map tree)`. -/
@[simp] theorem tree_list (items : List Draft) : tree (.list items) = .list (items.map tree) := by
  rw [tree, treeItems_eq]

/-- The tree of a map is the map of the trees. -/
@[simp] theorem tree_map (entries : List (Scalar × Draft)) :
    tree (.map entries) = .map (entries.map fun entry => (entry.1, entry.2.tree)) := by
  rw [tree, treeEntries_eq]

/-- Entries nest as deep as their values:
`heightEntries entries = heightItems (entries.map (·.2))`. -/
theorem heightEntries_eq (entries : List (Scalar × Draft)) :
    heightEntries entries = heightItems (entries.map (·.2)) := by
  induction entries with
  | nil => simp [heightEntries, heightItems]
  | cons entry entries ih => simp [heightEntries, heightItems, ih]

/-- Items nest as deep as each of them: `draft.height ≤ heightItems items`. -/
theorem height_le_heightItems {draft : Draft} {items : List Draft} (h : draft ∈ items) :
    draft.height ≤ heightItems items := by
  induction items with
  | nil => exact absurd h List.not_mem_nil
  | cons other items ih =>
    rw [heightItems]
    rcases List.mem_cons.mp h with rfl | h
    · exact le_max_left _ _
    · exact (ih h).trans (le_max_right _ _)

/-- One of the items nests as deep as they do. -/
theorem exists_height_eq {items : List Draft} (h : 0 < heightItems items) :
    ∃ draft ∈ items, draft.height = heightItems items := by
  induction items with
  | nil => simp [heightItems] at h
  | cons other items ih =>
    rw [heightItems] at h ⊢
    rcases le_total (heightItems items) other.height with hle | hle
    · exact ⟨other, List.mem_cons_self, (max_eq_left hle).symm⟩
    · rw [max_eq_right hle] at h ⊢
      obtain ⟨draft, hmem, heq⟩ := ih h
      exact ⟨draft, List.mem_cons_of_mem other hmem, heq⟩

/-- **A draft of scalars**, each of which is good, with good lists of keys. -/
inductive Every (good : Scalar → Prop) (goodKeys : List Scalar → Prop) : Draft → Prop
  | scalar {s : Scalar} (h : good s) : Every good goodKeys (.value (.scalar s))
  | list {items : List Draft} (h : ∀ draft ∈ items, Every good goodKeys draft) :
      Every good goodKeys (.list items)
  | map {entries : List (Scalar × Draft)} (keys : goodKeys (entries.map (·.1)))
      (h : ∀ entry ∈ entries, Every good goodKeys entry.2) : Every good goodKeys (.map entries)

/-- What holds of every scalar and of all keys may be weakened. -/
theorem Every.mono {good good' : Scalar → Prop} {goodKeys goodKeys' : List Scalar → Prop}
    (hgood : ∀ s, good s → good' s) (hkeys : ∀ keys, goodKeys keys → goodKeys' keys) {draft : Draft}
    (h : draft.Every good goodKeys) : draft.Every good' goodKeys' := by
  induction h with
  | scalar h => exact .scalar (hgood _ h)
  | list _ ih => exact .list ih
  | map keys _ ih => exact .map (hkeys _ keys) ih

end Draft

/-! ## Writing out -/

namespace Store

variable {store : Store} {good : Scalar → Prop} {goodKeys : List Scalar → Prop}

/-- **A value stands for one draft of scalars** only: `draft = other`. -/
theorem Holds.unique {draft other : Draft} {v : Value} (h : store.Holds draft v)
    (h' : store.Holds other v) (hevery : draft.Every good goodKeys)
    (hevery' : other.Every good goodKeys) : draft = other := by
  induction draft generalizing other v with
  | value w =>
    cases hevery
    cases h
    cases h'
    rfl
  | list items ih =>
    cases hevery with
    | list hitems =>
      cases h with
      | list _ each =>
        cases h' with
        -- a draft of scalars has no place for a list, so a list stands for a list only
        | value => cases hevery'
        | list _ each' =>
          cases hevery' with
          | list hitems' =>
            refine congrArg Draft.list (eq_of_forall₂ each each' fun a ha a' ha' v hv hv' => ?_)
            exact ih a ha hv hv' (hitems a ha) (hitems' a' ha')
  | map entries ih =>
    cases hevery with
    | map _ hentries =>
      cases h with
      | map _ keys each =>
        cases h' with
        | value => cases hevery'
        | @map others _ _ keys' each' =>
          cases hevery' with
          | map _ hothers =>
            have hdrafts : entries.map (·.2) = others.map (·.2) := by
              refine eq_of_forall₂ each each' fun a ha a' ha' v hv hv' => ?_
              obtain ⟨entry, hentry, rfl⟩ := List.mem_map.mp ha
              obtain ⟨entry', hentry', rfl⟩ := List.mem_map.mp ha'
              exact ih entry hentry hv hv' (hentries entry hentry) (hothers entry' hentry')
            exact congrArg Draft.map
              ((List.zip_of_prod (keys.trans keys'.symm) hdrafts).trans (List.zip_of_prod rfl rfl).symm)

/-- Writing out a list writes out its items. -/
theorem mapM_unfoldWithin {items : List Draft} {values : List Value} {n : Nat}
    (h : List.Forall₂ store.Holds items values)
    (hunfold : ∀ draft ∈ items, ∀ v, store.Holds draft v →
      store.unfoldWithin n v = .ok draft.tree) :
    values.mapM (store.unfoldWithin n) = .ok (items.map Draft.tree) :=
  mapM_of_forall₂ (List.forall₂_map_right_iff.mpr (forall₂_imp_of_mem h hunfold).flip)

/-- **What stands for a draft of scalars is written out** by `unfoldWithin` as its tree, if that is
allowed to nest as deep as the draft does. -/
theorem Holds.unfoldWithin {draft : Draft} {v : Value} (h : store.Holds draft v)
    (hevery : draft.Every (fun s => s.leaf = .ok s) fun keys => ∀ s ∈ keys, s.leaf = .ok s) {n : Nat}
    (hn : draft.height ≤ n) : store.unfoldWithin n v = .ok draft.tree := by
  induction draft generalizing v n with
  | value w =>
    cases hevery with
    | scalar hs =>
      cases h
      rw [Store.unfoldWithin, hs, Draft.tree_scalar]
      rfl
  | list items ih =>
    cases hevery with
    | list hitems =>
      cases h with
      | list _ each =>
        rw [Draft.height] at hn
        obtain _ | n := n
        · omega
        rw [Store.unfoldWithin, mapM_unfoldWithin each fun draft hdraft w hw =>
          ih draft hdraft hw (hitems draft hdraft)
            ((Draft.height_le_heightItems hdraft).trans (Nat.le_of_succ_le_succ hn)), Draft.tree_list]
        rfl
  | map entries ih =>
    cases hevery with
    | map hkeys hentries =>
      obtain ⟨ref, rfl, -, each⟩ := holds_map_iff.mp h
      rw [Draft.height, Draft.heightEntries_eq] at hn
      obtain _ | n := n
      · omega
      -- keys are leaves, and the values below nest one level less deep
      have hsteps : ((store.entries ref).mapM fun entry => do
          return (← entry.1.leaf, ← store.unfoldWithin n entry.2) :
            Except UnfoldError (List (Scalar × Tree)))
          = .ok (entries.map fun entry => (entry.1, entry.2.tree)) := by
        refine mapM_of_forall₂ (List.forall₂_map_right_iff.mpr (forall₂_imp_of_mem each ?_).flip)
        rintro entry hentry ⟨key, w⟩ ⟨rfl, hw⟩
        have hdraft := List.mem_map_of_mem (f := (·.2)) hentry
        simp only [flip]
        rw [hkeys _ (List.mem_map_of_mem hentry), ih entry hentry hw (hentries entry hentry)
          ((Draft.height_le_heightItems hdraft).trans (Nat.le_of_succ_le_succ hn))]
        rfl
      rw [Draft.tree_map, Store.unfoldWithin, hsteps]
      rfl

/-! ## How deep a store nests -/

/-- In what stands for a draft, something stands for a draft of every lower height. -/
theorem Holds.exists_of_lt_height {draft : Draft} {v : Value} (h : store.Holds draft v)
    (hevery : draft.Every good goodKeys) {height : Nat} (hlt : height < draft.height) :
    ∃ (other : Draft) (w : Value), store.Holds other w ∧ other.Every good goodKeys ∧
      other.height = height + 1 := by
  induction draft generalizing v with
  | value w => simp [Draft.height] at hlt
  -- the draft itself has the height that is asked for, or one of its parts reaches it
  | list items ih =>
    rcases Nat.eq_or_lt_of_le (Nat.succ_le_of_lt hlt) with heq | hlt
    · exact ⟨_, v, h, hevery, heq.symm⟩
    cases hevery with
    | list hitems =>
      cases h with
      | list _ each =>
        rw [Draft.height, Nat.succ_lt_succ_iff] at hlt
        obtain ⟨draft, hdraft, heq⟩ := Draft.exists_height_eq (Nat.zero_lt_of_lt hlt)
        obtain ⟨w, -, hw⟩ := exists_of_mem_forall₂ each hdraft
        exact ih draft hdraft hw (hitems draft hdraft) (heq ▸ hlt)
  | map entries ih =>
    rcases Nat.eq_or_lt_of_le (Nat.succ_le_of_lt hlt) with heq | hlt
    · exact ⟨_, v, h, hevery, heq.symm⟩
    cases hevery with
    | map _ hentries =>
      cases h with
      | map _ _ each =>
        rw [Draft.height, Nat.succ_lt_succ_iff, Draft.heightEntries_eq] at hlt
        obtain ⟨draft, hdraft, heq⟩ := Draft.exists_height_eq (Nat.zero_lt_of_lt hlt)
        obtain ⟨w, -, hw⟩ := exists_of_mem_forall₂ each hdraft
        obtain ⟨entry, hentry, rfl⟩ := List.mem_map.mp hdraft
        exact ih entry hentry hw (hentries entry hentry) (heq ▸ hlt)

/-- The lists and maps of a store, as values. -/
def containers (store : Store) : Finset Value :=
  (Finset.range store.lists.size).image Value.list ∪ (Finset.range store.maps.size).image Value.map

/-- A store has no more lists and maps than its size: `store.containers.card ≤ store.size`. -/
theorem card_containers_le (store : Store) : store.containers.card ≤ store.size := by
  calc store.containers.card
      ≤ ((Finset.range store.lists.size).image Value.list).card
        + ((Finset.range store.maps.size).image Value.map).card := Finset.card_union_le _ _
    _ ≤ (Finset.range store.lists.size).card + (Finset.range store.maps.size).card :=
      Nat.add_le_add Finset.card_image_le Finset.card_image_le
    _ = store.size := by simp [size]

/-- What stands for a list or a map is one of the store: `v ∈ store.containers`. -/
theorem Holds.mem_containers {draft : Draft} {v : Value} (h : store.Holds draft v)
    (hpos : 0 < draft.height) : v ∈ store.containers := by
  cases h with
  | value => simp [Draft.height] at hpos
  | list inside _ => simp [containers, inside]
  | map inside _ _ => simp [containers, inside]

/-- **A draft does not nest deeper than the store** has lists and maps: `draft.height ≤ store.size`.
What stands for drafts of different heights is different. -/
theorem Holds.height_le {draft : Draft} {v : Value} (h : store.Holds draft v)
    (hevery : draft.Every good goodKeys) : draft.height ≤ store.size := by
  choose! drafts values hholds heveries heights using
    fun height (hlt : height < draft.height) => h.exists_of_lt_height hevery hlt
  have hinj : Set.InjOn values (Finset.range draft.height) := by
    intro i hi j hj heq
    have hi := Finset.mem_range.mp hi
    have hj := Finset.mem_range.mp hj
    have hsame := (hholds i hi).unique (heq ▸ hholds j hj) (heveries i hi) (heveries j hj)
    have hheights := congrArg Draft.height hsame
    rw [heights i hi, heights j hj] at hheights
    omega
  calc draft.height = (Finset.range draft.height).card := (Finset.card_range _).symm
    _ ≤ store.containers.card := Finset.card_le_card_of_injOn values (fun i hi => by
        have hi := Finset.mem_range.mp hi
        exact (hholds i hi).mem_containers (by rw [heights i hi]; omega)) hinj
    _ ≤ store.size := store.card_containers_le

/-- **What stands for a draft of scalars is written out**: `store.unfold v = .ok draft.tree`. -/
theorem Holds.unfold {draft : Draft} {v : Value} (h : store.Holds draft v)
    (hevery : draft.Every (fun s => s.leaf = .ok s) fun keys => ∀ s ∈ keys, s.leaf = .ok s) :
    store.unfold v = .ok draft.tree :=
  h.unfoldWithin hevery (h.height_le hevery)

end Store

/-! ## Adding trees -/

section Adding

open Store (Grows)

variable {good : Scalar → Prop} {goodKeys : List Scalar → Prop}

/-- **What adding a tree leaves**: the store has grown by maps, which are those that stand for the
draft, each once. -/
structure Draft.Adds (draft : Draft) (before after : Store) (v : Value) : Prop where
  grows : Grows (fun _ => False) before after
  holds (later : Store) : Grows (fun _ => False) after later → later.Holds draft v
  maps : ∃ count, after.maps.size = before.maps.size + count ∧ ∀ later,
    Grows (fun _ => False) after later →
      later.mapsOf draft v = (List.range' before.maps.size count : Multiset Nat)

/-- What adding the trees of a list leaves. -/
structure Draft.AddsItems (items : List Draft) (before after : Store) (values : List Value) :
    Prop where
  grows : Grows (fun _ => False) before after
  holds (later : Store) : Grows (fun _ => False) after later →
    List.Forall₂ later.Holds items values
  maps : ∃ count, after.maps.size = before.maps.size + count ∧ ∀ later,
    Grows (fun _ => False) after later →
      later.mapsOfItems items values = (List.range' before.maps.size count : Multiset Nat)

/-- The trees of a list are added one after the other. -/
theorem Draft.addItems_adds {items : List Draft} (h : ∀ draft ∈ items, ∀ store : Store,
      draft.Adds store (draft.tree.addTo store).1 (draft.tree.addTo store).2) (store : Store) :
    AddsItems items store (Tree.addItems (items.map tree) store).1
      (Tree.addItems (items.map tree) store).2 := by
  induction items generalizing store with
  | nil =>
    refine ⟨.refl _ store, fun later _ => ?_, 0, rfl, fun later _ => ?_⟩
    · simp [Tree.addItems]
    · simp [Store.mapsOfItems]
  | cons draft items ih =>
    have hfirst := h draft List.mem_cons_self store
    have hrest := ih (fun other hother => h other (List.mem_cons_of_mem draft hother))
      (draft.tree.addTo store).1
    obtain ⟨count, hsize, hmaps⟩ := hfirst.maps
    obtain ⟨count', hsize', hmaps'⟩ := hrest.maps
    -- each item takes the places behind those of the items before it
    rw [List.map_cons, Tree.addItems]
    refine ⟨hfirst.grows.trans hrest.grows, fun later hlater => ?_, count + count', ?_,
      fun later hlater => ?_⟩
    · exact .cons (hfirst.holds later (hrest.grows.trans hlater)) (hrest.holds later hlater)
    · show (Tree.addItems (items.map tree) (draft.tree.addTo store).1).1.maps.size = _
      rw [hsize', hsize, Nat.add_assoc]
    · show later.mapsOf draft _ + later.mapsOfItems items _ = _
      rw [hmaps later (hrest.grows.trans hlater), hmaps' later hlater, hsize,
        ← List.range'_append_1]
      rfl

/-- Entries are added like the items of a list, with their keys put before them. -/
theorem Tree.addEntries_eq (entries : List (Scalar × Tree)) (store : Store) :
    addEntries entries store = ((addItems (entries.map (·.2)) store).1,
      (entries.map (·.1)).zip (addItems (entries.map (·.2)) store).2) := by
  induction entries generalizing store with
  | nil => simp [addEntries, addItems]
  | cons entry entries ih => simp [addEntries, addItems, ih]

/-- The list of what was added is added. -/
theorem Draft.AddsItems.list {items : List Draft} {before middle : Store} {values : List Value}
    (h : AddsItems items before middle values) :
    Draft.Adds (.list items) before (middle.addList values).1 (middle.addList values).2 := by
  have hgrows : Grows (fun _ => False) middle (middle.addList values).1 :=
    middle.grows_addList values
  have hsize : middle.lists.size < (middle.addList values).1.lists.size := by
    simp [Store.addList]
  have hitems (later : Store) (hlater : Grows (fun _ => False) (middle.addList values).1 later) :
      later.items middle.lists.size = values := by
    rw [hlater.items _ hsize, middle.items_addList]
  refine ⟨h.grows.trans hgrows, fun later hlater => ?_, ?_⟩
  · refine .list (hsize.trans_le hlater.lists) ?_
    rw [hitems later hlater]
    exact h.holds later (hgrows.trans hlater)
  · obtain ⟨count, hcount, hmaps⟩ := h.maps
    refine ⟨count, hcount, fun later hlater => ?_⟩
    show later.mapsOf (.list items) (.list middle.lists.size) = _
    rw [Store.mapsOf, hitems later hlater, hmaps later (hgrows.trans hlater)]

/-- The map of what was added is added. -/
theorem Draft.AddsItems.map {entries : List (Scalar × Draft)} {before middle : Store}
    {values : List Value} (h : AddsItems (entries.map (·.2)) before middle values) :
    Draft.Adds (.map entries) before (middle.addMap ((entries.map (·.1)).zip values)).1
      (middle.addMap ((entries.map (·.1)).zip values)).2 := by
  let added : Entries := (entries.map (·.1)).zip values
  have hgrows : Grows (fun _ => False) middle (middle.addMap added).1 := middle.grows_addMap added
  have hsize : middle.maps.size < (middle.addMap added).1.maps.size := by
    simp [Store.addMap]
  have hentries (later : Store) (hlater : Grows (fun _ => False) (middle.addMap added).1 later) :
      later.entries middle.maps.size = added := by
    rw [hlater.entries _ hsize not_false, middle.entries_addMap]
  have hlength : entries.length = values.length := by
    simpa using (h.holds middle (.refl _ middle)).length_eq
  have hkeys : added.map (·.1) = entries.map (·.1) := List.map_fst_zip (by simp [hlength])
  have hvalues : added.map (·.2) = values := List.map_snd_zip (by simp [hlength])
  refine ⟨h.grows.trans hgrows, fun later hlater => ?_, ?_⟩
  · refine .map (hsize.trans_le hlater.maps) ?_ ?_
    · rw [hentries later hlater, hkeys]
    · rw [hentries later hlater, hvalues]
      exact h.holds later (hgrows.trans hlater)
  · obtain ⟨count, hcount, hmaps⟩ := h.maps
    refine ⟨count + 1, ?_, fun later hlater => ?_⟩
    · show (middle.maps.push added).size = _
      rw [Array.size_push, hcount, Nat.add_assoc]
    -- the map itself has the last place, behind those of its values
    · show later.mapsOf (.map entries) (.map middle.maps.size) = _
      rw [Store.mapsOf, hentries later hlater, Store.mapsOfEntries_eq, hvalues,
        hmaps later (hgrows.trans hlater), hcount, List.range'_1_concat, ← Multiset.coe_add,
        add_comm]
      rfl

/-- **A tree that is added stands for its draft**, on maps of its own, by `addTo`. -/
theorem Draft.addTo_adds {draft : Draft} (hevery : draft.Every good goodKeys) (store : Store) :
    draft.Adds store (draft.tree.addTo store).1 (draft.tree.addTo store).2 := by
  induction draft generalizing store with
  | value v =>
    cases hevery with
    | scalar _ =>
      rw [tree_scalar, Tree.addTo]
      refine ⟨.refl _ store, fun later _ => .value _, 0, rfl, fun later _ => ?_⟩
      simp
  | list items ih =>
    cases hevery with
    | list hitems =>
      rw [tree_list, Tree.addTo]
      exact (addItems_adds (fun draft hdraft => ih draft hdraft (hitems draft hdraft)) store).list
  | map entries ih =>
    cases hevery with
    | map _ hentries =>
      have hitems : ∀ draft ∈ entries.map (·.2), ∀ store : Store,
          draft.Adds store (draft.tree.addTo store).1 (draft.tree.addTo store).2 := by
        intro draft hdraft
        obtain ⟨entry, hentry, rfl⟩ := List.mem_map.mp hdraft
        exact ih entry hentry (hentries entry hentry)
      have hadds := addItems_adds hitems store
      have htrees : (entries.map fun entry => (entry.1, entry.2.tree)).map (·.2)
          = (entries.map (·.2)).map tree := by
        simp
      have hkeys : (entries.map fun entry => (entry.1, entry.2.tree)).map (·.1)
          = entries.map (·.1) := by
        simp
      rw [tree_map, Tree.addTo, Tree.addEntries_eq, htrees, hkeys]
      exact hadds.map

/-- **The document of a tree**, `Document.ofTree`, stands for its draft, and no map stands for two
parts of it. -/
theorem Draft.ofTree_holds {draft : Draft} (hevery : draft.Every good goodKeys) :
    (Document.ofTree draft.tree).store.Holds draft (Document.ofTree draft.tree).root ∧
      ((Document.ofTree draft.tree).store.mapsOf draft (Document.ofTree draft.tree).root).Nodup := by
  have hadds := Draft.addTo_adds hevery {}
  obtain ⟨count, -, hmaps⟩ := hadds.maps
  refine ⟨hadds.holds _ (.refl _ _), ?_⟩
  rw [Document.ofTree]
  rw [hmaps _ (.refl _ _)]
  exact Multiset.coe_nodup.mpr List.nodup_range'

end Adding

end ModuleSurface
