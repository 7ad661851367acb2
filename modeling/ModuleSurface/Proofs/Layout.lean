import ModuleSurface.Proofs.Grammar
import ModuleSurface.Proofs.UnsharedDocuments

/-! # How a tree lies in a store

A value shows a tree when the lists and maps that it leads to are those of the tree. The maps are kept
track of, each as often as it shows a part of the tree, so a tree that lies in a store without sharing
shows no map twice.

* **`Store.Shows`** — a value shows a tree by some maps.
* **`Store.ShowsEntries.fields`** — fields of different names are shown by maps of their own.
* **`Document.ofTree_shows`** — the document of a tree shows it. -/

namespace ModuleSurface

namespace Store

/-- Values show trees in order, and their maps are put together. -/
inductive ShowsEach (shows : Tree → Value → Multiset Nat → Prop) :
    List Tree → List Value → Multiset Nat → Prop
  | nil : ShowsEach shows [] [] 0
  | cons {tree : Tree} {v : Value} {maps : Multiset Nat} {items : List Tree} {values : List Value}
      {others : Multiset Nat} (first : shows tree v maps) (rest : ShowsEach shows items values others) :
      ShowsEach shows (tree :: items) (v :: values) (maps + others)

/-- Entries show trees under the same keys in order, and their maps are put together. -/
inductive ShowsFields (shows : Tree → Value → Multiset Nat → Prop) :
    List (Scalar × Tree) → Entries → Multiset Nat → Prop
  | nil : ShowsFields shows [] [] 0
  | cons {key : Scalar} {tree : Tree} {v : Value} {maps : Multiset Nat}
      {trees : List (Scalar × Tree)} {entries : Entries} {others : Multiset Nat}
      (first : shows tree v maps) (rest : ShowsFields shows trees entries others) :
      ShowsFields shows ((key, tree) :: trees) ((key, v) :: entries) (maps + others)

/-- **A value shows a tree** by some maps: the one that it refers to, and those of its parts. -/
inductive Shows (store : Store) : Tree → Value → Multiset Nat → Prop
  | scalar (s : Scalar) : Shows store (.scalar s) (.scalar s) 0
  | list {items : List Tree} {ref : Nat} {maps : Multiset Nat}
      (each : ShowsEach (Shows store) items (store.items ref) maps) :
      Shows store (.list items) (.list ref) maps
  | map {entries : List (Scalar × Tree)} {ref : Nat} {maps : Multiset Nat}
      (each : ShowsFields (Shows store) entries (store.entries ref) maps) :
      Shows store (.map entries) (.map ref) ({ref} + maps)

variable {store : Store} {tree : Tree} {v : Value} {maps : Multiset Nat}

/-- **What stands for a draft of scalars** shows its tree, with the maps of `mapsOf draft v`. -/
theorem shows_of_holds {draft : Draft} (hscalars : draft.OfScalars) (hholds : store.Holds draft v) :
    store.Shows draft.tree v (store.mapsOf draft v) := by
  induction draft generalizing v with
  | value w =>
    obtain rfl := holds_value_iff.mp hholds
    cases hscalars
    rw [Draft.tree_scalar, mapsOf_value]
    exact .scalar _
  | list drafts ih =>
    obtain ⟨ref, rfl, -, hitems⟩ := holds_list_iff.mp hholds
    obtain _ | hscalars := hscalars
    rw [Draft.tree_list, mapsOf]
    refine .list ?_
    clear hholds
    generalize store.items ref = values at hitems
    induction hitems with
    | nil => exact .nil
    | cons hfirst _ ih' =>
      rw [List.forall_mem_cons] at ih hscalars
      exact .cons (ih.1 hscalars.1 hfirst) (ih' (fun d hd => ih.2 d hd) hscalars.2)
  | map drafts ih =>
    obtain ⟨ref, rfl, -, hentries⟩ := holds_map_iff.mp hholds
    obtain _ | _ | ⟨-, hscalars⟩ := hscalars
    rw [Draft.tree_map, mapsOf]
    refine .map ?_
    clear hholds
    generalize store.entries ref = entries at hentries
    induction hentries with
    | nil => exact .nil
    | @cons draft entry _ _ hfirst _ ih' =>
      obtain ⟨key, draft⟩ := draft
      obtain ⟨_, v⟩ := entry
      obtain ⟨rfl, hfirst⟩ := hfirst
      rw [List.forall_mem_cons] at ih hscalars
      exact .cons (ih.1 hscalars.1 hfirst) (ih' (fun d hd => ih.2 d hd) hscalars.2)

/-! ## Parts of what is shown -/

section Parts

variable {shows : Tree → Value → Multiset Nat → Prop}

/-- Values are empty together with the items that show them: `values.isEmpty = items.isEmpty`. -/
theorem ShowsEach.isEmpty_eq {items : List Tree} {values : List Value}
    (h : ShowsEach shows items values maps) : values.isEmpty = items.isEmpty := by
  cases h <;> rfl

/-- Entries are empty together with the fields that show them: `entries.isEmpty = trees.isEmpty`. -/
theorem ShowsFields.isEmpty_eq {trees : List (Scalar × Tree)} {entries : Entries}
    (h : ShowsFields shows trees entries maps) : entries.isEmpty = trees.isEmpty := by
  cases h <;> rfl

/-- **Fields of different names** are shown by maps of their own. -/
theorem ShowsFields.fields {trees : List (Scalar × Tree)} {entries : Entries}
    (h : ShowsFields shows trees entries maps) : ∃ parts : String → Multiset Nat,
      (∀ name, Option.Rel (fun tree v => shows tree v (parts name))
        (Tree.under? name trees) (entries.field? name)) ∧
      (∀ name, entries.field? name = none → parts name = 0) ∧
      ∀ names : List String, names.Nodup → (names.map parts).sum ≤ maps := by
  induction h with
  | nil => exact ⟨fun _ => 0, fun name => .none, fun _ _ => rfl, fun names _ => by simp⟩
  | @cons key tree v maps trees entries others hfirst _ ih =>
    obtain ⟨parts, hparts, hmissing, hsum⟩ := ih
    have hfield (name : String) : Entries.field? ((key, v) :: entries) name
        = if key = .text name then some v else Entries.field? entries name := by
      by_cases hkey : key = .text name <;> simp [Entries.field?, hkey]
    refine ⟨fun name => if key = .text name then maps else parts name, fun name => ?_,
      fun name hnone => ?_, ?_⟩
    · rw [Tree.under?_cons, hfield]
      by_cases hkey : key = .text name
      · simp only [if_pos hkey]
        exact .some hfirst
      · simp only [if_neg hkey]
        exact hparts name
    · rw [hfield] at hnone
      by_cases hkey : key = .text name
      · rw [if_pos hkey] at hnone
        cases hnone
      · rw [if_neg hkey] at hnone
        exact (if_neg hkey).trans (hmissing name hnone)
    · intro names hnodup
      -- at most one of the names is that of the first entry
      by_cases hmem : ∃ name ∈ names, key = .text name
      · obtain ⟨name, hname, rfl⟩ := hmem
        obtain ⟨first, last, rfl⟩ := List.append_of_mem hname
        have hperm : (first ++ name :: last).Perm (name :: (first ++ last)) := List.perm_middle
        obtain ⟨hfresh, hnodup⟩ := List.nodup_cons.mp (hperm.nodup_iff.mp hnodup)
        have hrest : ((first ++ last).map fun other =>
            if Scalar.text name = .text other then maps else parts other)
            = (first ++ last).map parts := by
          refine List.map_congr_left fun other hother => if_neg fun heq => hfresh ?_
          cases heq
          exact hother
        rw [(hperm.map _).sum_eq, List.map_cons, List.sum_cons, if_pos rfl, hrest]
        exact add_le_add_right (hsum _ hnodup) _
      · have hsame : (names.map fun name => if key = .text name then maps else parts name)
            = names.map parts :=
          List.map_congr_left fun name hname => if_neg fun heq => hmem ⟨name, hname, heq⟩
        rw [hsame]
        exact (hsum _ hnodup).trans (Multiset.le_add_left _ _)

end Parts

/-- A value counts as true when the tree that it shows does: `store.truthy v = tree.truthy`. -/
theorem Shows.truthy_eq (h : store.Shows tree v maps) : store.truthy v = tree.truthy := by
  cases h with
  | scalar s => rfl
  | list each => rw [truthy, Tree.truthy, each.isEmpty_eq]
  | map each => rw [truthy, Tree.truthy, each.isEmpty_eq]

end Store

/-- **The document of a tree** shows it, and shows no map twice: the `maps` have no duplicates and
are maps of the store. -/
theorem Document.ofTree_shows (tree : Tree) : ∃ maps : Multiset Nat,
    (Document.ofTree tree).store.Shows tree (Document.ofTree tree).root maps ∧ maps.Nodup ∧
      maps.card ≤ (Document.ofTree tree).store.maps.size := by
  obtain ⟨draft, hscalars, rfl⟩ := tree.exists_draft
  obtain ⟨hholds, hnodup⟩ := Draft.ofTree_holds hscalars
  refine ⟨_, Store.shows_of_holds hscalars hholds, hnodup, ?_⟩
  obtain ⟨count, hcount, hmaps⟩ := (Draft.addTo_adds hscalars {}).maps
  rw [Document.ofTree, hmaps _ (.refl _ _), hcount]
  simp

end ModuleSurface
