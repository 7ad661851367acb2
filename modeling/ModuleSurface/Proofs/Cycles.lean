import ModuleSurface.Proofs.CarriedDrafts
import ModuleSurface.Proofs.UnsharedDocuments

/-! # Graphs that cannot be written out

The document of a graph that JSON carries is written out, or it nests without end: nothing else
stands against it. And what is written out is the tree of a draft, in which no map contains itself. So
a graph in which an element contains itself cannot be written as a tree, and this is told.

* **`Json.CarriesBut`** — a draft that JSON carries, but for some of its values.
* **`Store.Written`** — a value is written out as the tree of a draft, or nests too deep.
* **`Graph.WrittenAs.acyclic`** — a graph of which the document is written out.
* **`Graph.unfold_of_cyclic`** — a graph in which an element contains itself. -/

namespace ModuleSurface

open Json (CarriesScalar CarriesKeys CarriesDraft)

/-! ## Drafts with links -/

namespace Json

/-- **A draft that JSON carries, but for some values**: the links to what is drafted elsewhere. -/
inductive CarriesBut (link : Value → Prop) : Draft → Prop
  | link {v : Value} (h : link v) : CarriesBut link (.value v)
  | scalar {s : Scalar} (h : CarriesScalar s) : CarriesBut link (.value (.scalar s))
  | list {items : List Draft} (h : ∀ draft ∈ items, CarriesBut link draft) :
      CarriesBut link (.list items)
  | map {entries : List (Scalar × Draft)} (keys : CarriesKeys (entries.map (·.1)))
      (h : ∀ entry ∈ entries, CarriesBut link entry.2) : CarriesBut link (.map entries)

/-- What JSON carries but for its links is inherited by lists and maps. -/
theorem hereditary_carriesBut (link : Value → Prop) : Hereditary (CarriesBut link) :=
  ⟨.scalar, .list, .map⟩

end Json

open Json (CarriesBut)

/-! ## Writing out -/

namespace Store

variable {store : Store} {n ref : Nat} {v : Value} {link : Value → Prop}

/-- **A value is written out as the tree of a draft**, or it nests too deep. -/
def Written (store : Store) (n : Nat) (v : Value) : Prop :=
  store.unfoldWithin n v = .error .cyclic ∨
    ∃ draft, (store.Holds draft v ∧ CarriesDraft draft) ∧ store.unfoldWithin n v = .ok draft.tree

/-- A scalar that JSON carries is written at once, however deep it is nested. -/
theorem written_scalar {s : Scalar} (hs : CarriesScalar s) : store.Written n (.scalar s) := by
  refine .inr ⟨.value (.scalar s), ⟨.value _, .scalar hs⟩, ?_⟩
  rw [unfoldWithin, Json.leaf_of_carriesScalar hs, Draft.tree_scalar]
  rfl

/-- A list nests one level deeper than its items. -/
theorem written_list (inside : ref < store.lists.size)
    (hitems : ∀ w ∈ store.items ref, store.Written n w) : store.Written (n + 1) (.list ref) := by
  rw [Written, unfoldWithin]
  rcases mapM_eq_error_or hitems with herror | ⟨drafts, hdrafts, hok⟩
  · left
    rw [herror]
    rfl
  · right
    refine ⟨.list drafts,
      ⟨.list inside (hdrafts.imp fun _ _ h => h.1), .list fun draft hdraft => ?_⟩, ?_⟩
    · obtain ⟨w, -, hw⟩ := exists_of_mem_forall₂ hdrafts hdraft
      exact hw.2
    · rw [hok, Draft.tree_list]
      rfl

/-- A map nests one level deeper than its values, if JSON carries its keys. -/
theorem written_map (inside : ref < store.maps.size)
    (hkeys : CarriesKeys ((store.entries ref).map (·.1)))
    (hentries : ∀ entry ∈ store.entries ref, store.Written n entry.2) :
    store.Written (n + 1) (.map ref) := by
  -- the step of an entry: its key is a leaf, and its value is written out
  have hsteps : ∀ entry ∈ store.entries ref,
      (do return (← entry.1.leaf, ← store.unfoldWithin n entry.2) : Except UnfoldError (Scalar × Tree))
        = .error .cyclic ∨
      ∃ field : Scalar × Draft,
        (field.1 = entry.1 ∧ store.Holds field.2 entry.2 ∧ CarriesDraft field.2) ∧
        (do return (← entry.1.leaf, ← store.unfoldWithin n entry.2) :
          Except UnfoldError (Scalar × Tree)) = .ok (field.1, field.2.tree) := by
    intro entry hentry
    rw [Json.leaf_of_carriesKeys hkeys _ (List.mem_map_of_mem hentry)]
    rcases hentries entry hentry with herror | ⟨draft, hdraft, hok⟩
    · left
      rw [herror]
      rfl
    · right
      refine ⟨(entry.1, draft), ⟨rfl, hdraft⟩, ?_⟩
      rw [hok]
      rfl
  rw [Written, unfoldWithin]
  rcases mapM_eq_error_or hsteps with herror | ⟨fields, hfields, hok⟩
  · left
    rw [herror]
    rfl
  · right
    have hholds : store.HoldsEntries fields (store.entries ref) :=
      hfields.imp fun _ _ h => ⟨h.1, h.2.1⟩
    obtain ⟨hsame, each⟩ := holdsEntries_iff.mp hholds
    refine ⟨.map fields, ⟨.map inside hsame each, .map ?_ fun field hfield => ?_⟩, ?_⟩
    · rwa [hsame]
    · obtain ⟨entry, -, hentry⟩ := exists_of_mem_forall₂ hfields hfield
      exact hentry.2.2
    · rw [hok, Draft.tree_map]
      rfl

/-- **What stands for a draft that JSON carries but for its links** is written out or nests too deep,
if each link stands for such a map as well. -/
theorem written_of_carriesBut (hlink : ∀ w, link w → ∃ fields : List (Scalar × Draft),
      CarriesBut link (.map fields) ∧ store.Holds (.map fields) w) (n : Nat) {draft : Draft}
    (hdraft : CarriesBut link draft) (hholds : store.Holds draft v) : store.Written n v := by
  induction n generalizing draft v with
  | zero =>
    cases hholds with
    | value =>
      cases hdraft with
      | scalar hs => exact written_scalar hs
      | link hv =>
        obtain ⟨fields, -, hfields⟩ := hlink v hv
        obtain ⟨ref, rfl, -⟩ := holds_map_iff.mp hfields
        exact .inl rfl
    | list => exact .inl rfl
    | map => exact .inl rfl
  | succ n ih =>
    have hmap {fields : List (Scalar × Draft)} {w : Value} (hfields : CarriesBut link (.map fields))
        (hw : store.Holds (.map fields) w) : store.Written (n + 1) w := by
      obtain _ | _ | _ | ⟨hkeys, hvalues⟩ := hfields
      obtain ⟨ref, rfl, inside, hentries⟩ := holds_map_iff.mp hw
      obtain ⟨hsame, -⟩ := holdsEntries_iff.mp hentries
      refine written_map inside (hsame ▸ hkeys) fun entry hentry => ?_
      obtain ⟨field, hfield, -, hvalue⟩ := exists_of_mem_forall₂ hentries.flip hentry
      exact ih (hvalues field hfield) hvalue
    cases hdraft with
    | link hv =>
      cases hholds
      obtain ⟨fields, hfields, hw⟩ := hlink v hv
      exact hmap hfields hw
    | scalar hs =>
      cases hholds
      exact written_scalar hs
    | list hitems =>
      obtain ⟨ref, rfl, inside, each⟩ := holds_list_iff.mp hholds
      refine written_list inside fun w hw => ?_
      obtain ⟨item, hitem, hholds⟩ := exists_of_mem_forall₂ each.flip hw
      exact ih (hitems item hitem) hholds
    | map hkeys hvalues => exact hmap (.map hkeys hvalues) hholds

/-- What spells an element is read as it, whatever name it inherits. -/
theorem Spells.readsAs {element : Element} {entries : Entries} (h : store.Spells element entries)
    (inherited : Option Value) : store.ReadsAs inherited element entries where
  head := h.head inherited
  members := h.members
  links := by
    have hlinks := h.links
    cases hbody : element.body with
    | functionPrototype instances | classPrototype instances =>
      rw [hbody] at hlinks
      exact .inr hlinks
    | classType links | interfaceType links =>
      rw [hbody] at hlinks
      exact hlinks
    | _ => trivial

end Store

namespace Graph

variable {graph : Graph} {document : Document} {place : Handle → Nat}

/-- **The document of a graph that JSON carries** is written out by `unfold`, or it nests too deep.
-/
theorem PlacedAs.written (hp : PlacedAs place graph document) (hcarried : graph.Carried) (n : Nat) :
    document.store.Written n document.root := by
  let link (v : Value) : Prop := ∃ a, graph.Reachable a ∧ v = .map (place a)
  have hlink : ∀ v, link v → ∃ fields : List (Scalar × Draft),
      CarriesBut link (.map fields) ∧ document.store.Holds (.map fields) v := by
    rintro _ ⟨a, ha, rfl⟩
    refine ⟨_, ?_, Store.holds_map_iff.mpr ⟨place a, rfl, hp.inside ha, hp.holds ha⟩⟩
    exact Json.hereditary_element (Json.hereditary_carriesBut link) (hcarried.elements ha)
      fun b hb => .link ⟨b, .step ha hb, rfl⟩
  have hroot : CarriesBut link (graph.rootDraft fun h => .value (.map (place h))) :=
    Json.hereditary_root (Json.hereditary_carriesBut link) hcarried.exports
      fun a ha => .link ⟨a, .root ha, rfl⟩
  exact Store.written_of_carriesBut hlink n hroot hp.root

/-- **A graph of which the document is the tree of a draft** is `Acyclic`: nothing contains itself.
The maps of its elements are unfolded as the elements are. -/
theorem WrittenAs.acyclic (hw : WrittenAs place graph document) {draft : Draft}
    (hholds : document.store.Holds draft document.root) (hscalars : draft.OfScalars) :
    graph.Acyclic := by
  obtain ⟨forest, hforest, -⟩ := Document.exportedMaps_unfold hholds hscalars
  have hexported : document.exportedMaps = (graph.exports.map (·.2)).map place := by
    obtain ⟨ref, hroot, hexports, -⟩ := hw.root
    rw [Document.SpellsExports.exportedMaps ⟨ref, hroot, .inr hexports⟩, Members.map_snd_rename]
  have hrefers {h : Handle} (hh : graph.Reachable h) :
      document.store.refersTo (place h) = (graph.element h).successors.map place := by
    rw [((hw.spells hh).readsAs none).refersTo, Element.successors_map]
  -- what an element leads to, its map leads to
  have hreached {roots : List Handle} (hroots : ∀ a ∈ roots, graph.Reachable a) {h : Handle}
      (hh : Reached (fun h => (graph.element h).successors) roots h) :
      graph.Reachable h ∧ Reached document.store.refersTo (roots.map place) (place h) := by
    induction hh with
    | root mem => exact ⟨hroots _ mem, .root (List.mem_map_of_mem mem)⟩
    | step _ mem ih =>
      refine ⟨.step ih.1 mem, .step ih.2 ?_⟩
      rw [hrefers ih.1]
      exact List.mem_map_of_mem mem
  intro h hh hcycle
  have hshown : place h ∈ forest.preorder := by
    rw [hforest.mem_preorder_iff, hexported]
    exact (hreached (fun _ ha => .root ha) hh).2
  obtain ⟨inside, hinside, -, -⟩ := hforest.exists_below hshown
  refine hinside.not_mem_below (hinside.mem_preorder_iff.mpr ?_)
  rw [hrefers hh]
  exact (hreached (fun _ ha => .step hh ha) hcycle).2

/-- **A graph in which an element contains itself** cannot be written out, and `unfold` says why:
`.error .cyclic`. -/
theorem unfold_of_cyclic (hsound : graph.Sound) (hcarried : graph.Carried)
    (hcyclic : ¬ graph.Acyclic) : graph.toDocument.unfold = .error .cyclic := by
  obtain ⟨place, hplaced, -, hgrows⟩ := placedAs_toDocument hsound
  rcases hplaced.written hcarried graph.toDocument.store.size with herror | ⟨draft, ⟨hholds, hdraft⟩, -⟩
  · exact herror
  · have hscalars : draft.OfScalars := hdraft.mono (fun _ _ => trivial) fun _ _ => trivial
    exact absurd ((hplaced.writtenAs hsound hgrows).acyclic hholds hscalars) hcyclic

end Graph

end ModuleSurface
