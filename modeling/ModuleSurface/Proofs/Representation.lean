import ModuleSurface.Proofs.FirstVisits
import ModuleSurface.Proofs.RoundTrip

/-! # How a graph represents the document that it was read from

Reading keeps one element for each map, and a map is known before what it refers to is read; so an
element may be referred to while it is still without its members, its instances and its base. When
the reading is over nothing is left of this: the elements are those that the maps spell, one for each
map that is reached, with the name that the map has or inherited where it was first come to.

* **`Graph.Represents`** — what holds between a document and the graph that was read from it.
* **`Graph.exists_represents`** — every graph that was read represents its document. -/

namespace ModuleSurface

namespace Graph

variable {graph : Graph} {document : Document} {forest : Forest Visit}

/-! ## Places -/

namespace MadeOf

/-- The maps that are visited are those that are reached: `r ∈ forest.refs ↔ document.Reaches r`. -/
theorem reached (h : graph.MadeOf document forest) (r : Nat) :
    r ∈ forest.refs ↔ document.Reaches r := by
  have hiff := h.search.depthFirst.mem_preorder_iff (a := r)
  rwa [Forest.preorder_map] at hiff

/-- A map that is reached was visited. -/
theorem exists_visit (h : graph.MadeOf document forest) {r : Nat} (hr : document.Reaches r) :
    ∃ visit ∈ forest.preorder, visit.ref = r :=
  List.mem_map.mp ((h.reached r).mpr hr)

/-- **What an element refers to** are the places of what its map refers to,
`document.store.refersTo r`. -/
theorem successors (h : graph.MadeOf document forest) {r : Nat} (hr : document.Reaches r) :
    (graph.element (forest.refs.idxOf r)).successors
      = (document.store.refersTo r).map forest.refs.idxOf := by
  obtain ⟨visit, hvisit, rfl⟩ := h.exists_visit hr
  rw [h.element visit hvisit, Element.successors_map, (h.search.reads visit hvisit).refersTo]

/-- What is exported are the places of `document.exportedMaps`. -/
theorem exported (h : graph.MadeOf document forest) :
    graph.exports.map (·.2) = document.exportedMaps.map forest.refs.idxOf := by
  obtain ⟨refs, hspells, hexports⟩ := h.exports
  rw [hexports, Members.map_snd_rename, hspells.exportedMaps]

/-- **The elements that can be reached** are the places of the maps that are reached. -/
theorem reachable (h : graph.MadeOf document forest) (a : Handle) :
    graph.Reachable a ↔ ∃ r, document.Reaches r ∧ forest.refs.idxOf r = a := by
  constructor
  · intro ha
    refine ha.mem_of_closed (S := fun b => ∃ r, document.Reaches r ∧ forest.refs.idxOf r = b)
      (fun b hb => ?_) fun b hb c hc => ?_
    · rw [h.exported] at hb
      obtain ⟨r, hr, rfl⟩ := List.mem_map.mp hb
      exact ⟨r, .root hr, rfl⟩
    · obtain ⟨r, hr, rfl⟩ := hb
      rw [h.successors hr] at hc
      obtain ⟨s, hs, rfl⟩ := List.mem_map.mp hc
      exact ⟨s, .step hr hs, rfl⟩
  · rintro ⟨r, hr, rfl⟩
    -- from a map to the next one, the elements follow
    induction hr with
    | root hmem =>
      refine .root ?_
      rw [h.exported]
      exact List.mem_map_of_mem hmem
    | step hbefore hmem ih =>
      refine .step ih ?_
      rw [h.successors hbefore]
      exact List.mem_map_of_mem hmem

/-- Two maps that are reached have the same place only if they are the same:
`forest.refs.idxOf r = forest.refs.idxOf s ↔ r = s`. -/
theorem idxOf_inj (h : graph.MadeOf document forest) {r s : Nat} (hr : document.Reaches r) :
    forest.refs.idxOf r = forest.refs.idxOf s ↔ r = s :=
  List.idxOf_inj ((h.reached r).mpr hr)

/-- **The handles count the maps**, in the order of their first visits: `List.range graph.size`. -/
theorem handles (h : graph.MadeOf document forest) :
    forest.refs.map forest.refs.idxOf = List.range graph.size := by
  refine List.ext_getElem (by simp [h.size]) fun i hi hi' => ?_
  rw [List.getElem_map, List.getElem_range, h.search.nodup_refs.idxOf_getElem]

end MadeOf

/-! ## The representation -/

/-- **A graph represents a document**: its elements are the maps that the document reaches. -/
structure Represents (graph : Graph) (document : Document) (forest : Forest Visit) : Prop where
  /-- The maps are visited depth first from the exports, the members of each before its instances,
  its base, its static members and its instance members. -/
  search : FirstVisits document.store [] document.calls forest
  /-- The maps that are visited are those that can be reached. -/
  reached (r : Nat) : r ∈ forest.refs ↔ document.Reaches r
  /-- Two maps are the same element exactly when they are the same map. -/
  same {r s : Nat} : document.Reaches r → document.Reaches s →
    (forest.refs.idxOf r = forest.refs.idxOf s ↔ r = s)
  /-- The handles of the elements are different, and count them in the order of the visits. -/
  handles : forest.refs.map forest.refs.idxOf = List.range graph.size
  /-- The elements that can be reached are those of the maps that can be reached. -/
  reachable (a : Handle) :
    graph.Reachable a ↔ ∃ r, document.Reaches r ∧ forest.refs.idxOf r = a
  /-- The exports are all there. -/
  exports : ∃ refs, document.SpellsExports refs ∧ graph.exports = refs.rename forest.refs.idxOf
  /-- An element is complete: all that its map spells is there, under its place. -/
  complete : ∀ visit ∈ forest.preorder,
    document.store.ReadsAs visit.inherited visit.element (document.store.entries visit.ref) ∧
      graph.element (forest.refs.idxOf visit.ref) = visit.element.map forest.refs.idxOf
  /-- The name of an element is that of its map, or the one that the map inherited when it was first
  come to. -/
  name : ∀ visit ∈ forest.preorder, (graph.element (forest.refs.idxOf visit.ref)).name
    = ((document.store.entries visit.ref).field? "name").getD (Value.ofOption visit.inherited)
  /-- Names count as true, instances and bases are of their sort, numbers are of theirs, and
  signatures have a name for each type. -/
  sound : graph.Sound

/-- **A graph that was read represents its document**, `graph.Represents document forest`, also
where maps are shared or contain themselves. -/
theorem exists_represents (h : ofDocument document = .ok graph) :
    ∃ forest, graph.Represents document forest := by
  obtain ⟨forest, hmade⟩ := exists_madeOf h
  refine ⟨forest, hmade.search, hmade.reached, fun hr _ => hmade.idxOf_inj hr, hmade.handles,
    hmade.reachable, hmade.exports,
    fun visit hvisit => ⟨hmade.search.reads visit hvisit, hmade.element visit hvisit⟩,
    fun visit hvisit => ?_, (sound_of_ofDocument h).1⟩
  rw [hmade.element visit hvisit, Element.name_map]
  exact (Store.name_of_readHead (hmade.search.reads visit hvisit).head :)

/-- A document with a class that is its own base, has no name, and is exported under one name, but is
an instance of a prototype that is exported before under another one. -/
def nameless : Document where
  store := {
    lists := #[[.map 1]]
    maps := #[
      [(.text "kind", .text "class_prototype"), (.text "instances", .list 0)],
      [(.text "kind", .text "class"), (.text "base", .map 1)],
      [(.text "first", .map 0), (.text "second", .map 1)],
      [(.text "exports", .map 2)]] }
  root := .map 3

/-- The graph of the document: the class has the name of the prototype. -/
def namelessGraph : Graph where
  store := nameless.store
  elements := #[
    { name := .text "first", body := .classPrototype [1] },
    { name := .text "first", body := .classType { base := some 1 } }]
  exports := [(.text "first", 0), (.text "second", 1)]

/-- The class is one element, and its handle is that of the instance and of the base. -/
theorem exists_represents_nameless :
    ofDocument nameless = .ok namelessGraph ∧
      ∃ forest, namelessGraph.Represents nameless forest := by
  have hread : ofDocument nameless = .ok namelessGraph := rfl
  exact ⟨hread, exists_represents hread⟩

end Graph

end ModuleSurface
