import ModuleSurface.Proofs.NestedBuild
import ModuleSurface.Proofs.NestedReading
import ModuleSurface.Proofs.RoundTrip

/-! # Recursions on cyclic data come to an end

Reading, writing and building go through data that may contain itself, and each of them remembers
what it has met before it goes on inside. So each nests at most as deep as there is something to be
reached, and a bound of this size is never used up: whatever would be done at a greater depth, the
outcome is the same.

* **`Graph.searchNested`**, **`Graph.searchWithin`** — the search for the elements to be written, with
  a bound on the elements that are found inside each other, and with a bound on calls.
* **`Graph.toDocumentBy`** — the document that is written with a search, which is `Graph.toDocument`
  for the search that discovers the elements (`Graph.toDocument_eq_by`).
* **`Graph.nesting_bounded`** — the bounds of the three recursions. -/

namespace ModuleSurface

namespace Graph

variable {graph : Graph} {next : Handle → List Handle} {found waiting : List Handle}
  {forest : Forest Handle} {bound : Nat}

/-! ## Writing -/

/-- One step of a search through elements: one that is found already is passed over, and a new one is
found in a certain way. -/
def searchBy (find : List Handle → Handle → List Handle) (found : List Handle) (h : Handle) :
    List Handle :=
  if h ∈ found then found else find found h

/-- **A search within a bound** on how deep its calls nest, elements that are found already included.
A call that is nested deeper is left to another search. -/
def searchWithin (next : Handle → List Handle) (deeper : List Handle → Handle → List Handle) :
    Nat → List Handle → Handle → List Handle
  | 0 => deeper
  | bound + 1 => searchBy fun found h =>
    (next h).foldl (searchWithin next deeper bound) (found ++ [h])

/-- **A search within a bound** on how many elements are found inside each other. An element that
would be found one deeper inside is found in another way. -/
def searchNested (next : Handle → List Handle) (deeper : List Handle → Handle → List Handle) :
    Nat → List Handle → Handle → List Handle
  | 0 => searchBy deeper
  | bound + 1 => searchBy fun found h =>
    (next h).foldl (searchNested next deeper bound) (found ++ [h])

/-- **The document of a graph with a search**: the elements are written in the order in which the
search finds them from the exports on. -/
def toDocumentBy (graph : Graph) (find : List Handle → Handle → List Handle) : Document :=
  graph.writeInOrder ((graph.exports.map (·.2)).foldl find [])

/-- The document of a graph is written with the search that discovers its elements: `toDocument` is
`toDocumentBy` the search `discoverFrom`. -/
theorem toDocument_eq_by (graph : Graph) :
    graph.toDocument = graph.toDocumentBy (graph.discoverFrom (graph.size + 1)) := by
  rw [toDocument, toDocumentBy, discover, List.foldl_map]

/-- A search finds its forest where the bound on the elements is no less than the height,
`forest.height ≤ bound`. -/
theorem foldl_searchNested (hsearch : DepthFirst next found waiting forest)
    (deeper : List Handle → Handle → List Handle) (hheight : forest.height ≤ bound) :
    waiting.foldl (searchNested next deeper bound) found = found ++ forest.preorder :=
  hsearch.foldl_eq (searchNested next deeper) (fun bound _ _ old => by cases bound <;> exact if_pos old)
    (fun _ _ _ new => if_neg new) hheight

/-- A search finds its forest where the bound on calls is above the height, `bound + 1`. -/
theorem foldl_searchWithin (hsearch : DepthFirst next found waiting forest)
    (deeper : List Handle → Handle → List Handle) (hheight : forest.height ≤ bound) :
    waiting.foldl (searchWithin next deeper (bound + 1)) found = found ++ forest.preorder :=
  hsearch.foldl_eq (fun calls => searchWithin next deeper (calls + 1)) (fun _ _ _ old => if_pos old)
    (fun _ _ _ new => if_neg new) hheight

/-- **There is a search from the exports**, in whatever order an element goes on to what it refers to.
It finds what can be reached, and its height is no more than there are such elements. -/
theorem exists_search (graph : Graph) (hbound : graph.reachedElements.card ≤ bound)
    (hnext : ∀ h a, a ∈ next h ↔ a ∈ (graph.element h).successors) :
    ∃ forest, DepthFirst next [] (graph.exports.map (·.2)) forest ∧
      (∀ h, h ∈ forest.preorder ↔ graph.Reachable h) ∧ forest.height ≤ bound := by
  have hreached (a : Handle) : Reached next (graph.exports.map (·.2)) a ↔ graph.Reachable a := by
    constructor
    · exact Reached.mem_of_closed (fun b hb => .root hb) fun b hb c hc =>
        .step hb ((hnext b c).mp hc)
    · exact Reached.mem_of_closed (fun b hb => .root hb) fun b hb c hc =>
        .step hb ((hnext b c).mpr hc)
  obtain ⟨forest, hsearch⟩ := @DepthFirst.exists_of_closed _ next _ graph.reachedElements
    (fun a ha b hb => mem_reachedElements.mpr
      (.step (mem_reachedElements.mp ha) ((hnext a b).mp hb))) [] (graph.exports.map (·.2))
    fun a ha => mem_reachedElements.mpr (.root ha)
  have hmem (h : Handle) : h ∈ forest.preorder ↔ graph.Reachable h :=
    hsearch.mem_preorder_iff.trans (hreached h)
  refine ⟨forest, hsearch, hmem, (forest.height_le_length.trans ?_).trans hbound⟩
  rw [← List.toFinset_card_of_nodup hsearch.nodup_preorder]
  refine Finset.card_le_card fun a ha => ?_
  exact mem_reachedElements.mpr ((hmem a).mp (List.mem_toFinset.mp ha))

/-- **Elements are written inside each other** at most as often as there are elements to be reached,
in whatever order an element goes on to what it refers to. -/
theorem exists_searched (graph : Graph) (hbound : graph.reachedElements.card ≤ bound)
    (hnext : ∀ h a, a ∈ next h ↔ a ∈ (graph.element h).successors) :
    ∃ order : List Handle, order.Nodup ∧ (∀ h, h ∈ order ↔ graph.Reachable h) ∧
      (∀ deeper, (graph.exports.map (·.2)).foldl (searchNested next deeper bound) [] = order) ∧
      (∀ deeper, (graph.exports.map (·.2)).foldl (searchWithin next deeper (bound + 1)) [] = order) ∧
      (next = (fun h => (graph.element h).successors) → order = graph.discover) := by
  obtain ⟨forest, hsearch, hmem, hheight⟩ := graph.exists_search hbound hnext
  refine ⟨forest.preorder, hsearch.nodup_preorder, hmem, fun deeper => ?_, fun deeper => ?_, ?_⟩
  · rw [foldl_searchNested hsearch deeper hheight, List.nil_append]
  · rw [foldl_searchWithin hsearch deeper hheight, List.nil_append]
  · rintro rfl
    exact (discover_eq_preorder hsearch).symm

/-- The document is written with a search that nests within the bound, on the elements alone:
`searchNested` writes `toDocument`. -/
theorem toDocumentBy_searchNested (hbound : graph.reachedElements.card ≤ bound)
    (deeper : List Handle → Handle → List Handle) :
    graph.toDocumentBy (searchNested (fun h => (graph.element h).successors) deeper bound)
      = graph.toDocument := by
  obtain ⟨forest, hsearch, -, hheight⟩ := graph.exists_search hbound fun _ _ => Iff.rfl
  rw [toDocument, discover_eq_preorder hsearch, toDocumentBy,
    foldl_searchNested hsearch deeper hheight, List.nil_append]

/-- The document is written with a search whose calls nest one deeper than the bound at most:
`searchWithin` writes `toDocument`. -/
theorem toDocumentBy_searchWithin (hbound : graph.reachedElements.card ≤ bound)
    (deeper : List Handle → Handle → List Handle) :
    graph.toDocumentBy (searchWithin (fun h => (graph.element h).successors) deeper (bound + 1))
      = graph.toDocument := by
  obtain ⟨forest, hsearch, -, hheight⟩ := graph.exists_search hbound fun _ _ => Iff.rfl
  rw [toDocument, discover_eq_preorder hsearch, toDocumentBy,
    foldl_searchWithin hsearch deeper hheight, List.nil_append]

/-! ## All three recursions -/

/-- **Nesting is bounded by what can be reached**, however data refers back to itself. Take a bound that
is no less than the number of maps that a document reaches, or of elements that can be reached in a
graph. Where it bounds how many maps become elements inside each other, or how many elements are
written or declared inside each other, what would be done any deeper does not matter, since nothing is
left to be done there; and with one more it bounds how deep calls nest at all. This holds of writing
in whatever order an element goes on to its successors. -/
theorem nesting_bounded :
    (∀ (document : Document) (bound : Nat), document.reachedMaps.card ≤ bound →
      (∀ deeper, ofDocumentBy document (document.store.readNested deeper bound)
        = ofDocument document) ∧
      (∀ deeper, ofDocumentBy document (document.store.readWithin deeper (bound + 1))
        = ofDocument document) ∧
      ofDocument document ≠ .error .nestedTooDeep) ∧
    (∀ (graph : Graph) (bound : Nat), graph.reachedElements.card ≤ bound →
      (∀ deeper, graph.toDocumentBy
          (searchNested (fun h => (graph.element h).successors) deeper bound)
        = graph.toDocument) ∧
      (∀ deeper, graph.toDocumentBy
          (searchWithin (fun h => (graph.element h).successors) deeper (bound + 1))
        = graph.toDocument) ∧
      ∀ next : Handle → List Handle, (∀ h a, a ∈ next h ↔ a ∈ (graph.element h).successors) →
        ∃ order : List Handle, order.Nodup ∧ (∀ h, h ∈ order ↔ graph.Reachable h) ∧
          (∀ deeper, (graph.exports.map (·.2)).foldl (searchNested next deeper bound) [] = order) ∧
          (∀ deeper, (graph.exports.map (·.2)).foldl (searchWithin next deeper (bound + 1)) []
            = order) ∧
          (next = (fun h => (graph.element h).successors) → order = graph.discover)) ∧
    ∀ (graph : Graph) (dialect : Dialect) (bound : Nat), graph.reachedElements.card ≤ bound →
      (∀ deeper, graph.buildBy dialect (graph.visitNested dialect deeper bound)
        = graph.build dialect) ∧
      (∀ deeper, graph.buildBy dialect (graph.visitWithin dialect deeper (bound + 1))
        = graph.build dialect) :=
  ⟨fun document _ hbound => ⟨ofDocumentBy_readNested hbound, ofDocumentBy_readWithin hbound,
      ofDocument_ne_nestedTooDeep document⟩,
    fun graph _ hbound => ⟨toDocumentBy_searchNested hbound, toDocumentBy_searchWithin hbound,
      fun _ hnext => graph.exists_searched hbound hnext⟩,
    fun _ _ _ hbound => ⟨buildBy_visitNested hbound, buildBy_visitWithin hbound⟩⟩

/-- A namespace that contains itself is one map and one element, so a bound of one is enough to read,
to write and to declare it. -/
theorem nesting_bounded_loop :
    (∀ deeper, ofDocumentBy loopDocument (loopDocument.store.readNested deeper 1) = .ok loopGraph) ∧
    (∀ deeper, loopGraph.toDocumentBy
      (searchNested (fun h => (loopGraph.element h).successors) deeper 1) = loopGraph.toDocument) ∧
    ∀ dialect deeper, loopGraph.buildBy dialect (loopGraph.visitNested dialect deeper 1)
      = loopGraph.build dialect := by
  obtain ⟨hreading, hwriting, hbuilding⟩ := nesting_bounded
  have hread : ofDocument loopDocument = .ok loopGraph := rfl
  have hmaps : loopDocument.reachedMaps ⊆ {0} := fun ref href => by
    have hexported : loopDocument.exportedMaps = [0, 0] := rfl
    refine Finset.mem_singleton.mpr ((Document.mem_reachedMaps.mp href).1.mem_of_closed
      (S := (· = 0)) (fun a ha => ?_) fun a ha b hb => ?_)
    · simpa [hexported] using ha
    · subst ha
      exact List.mem_singleton.mp hb
  have helements : loopGraph.reachedElements ⊆ {0} := fun h hh =>
    Finset.mem_singleton.mpr (eq_zero_of_reachable_loopGraph (mem_reachedElements.mp hh))
  have hcard := Finset.card_le_card helements
  refine ⟨fun deeper => ?_, (hwriting loopGraph 1 hcard).1, fun dialect deeper => ?_⟩
  · rw [(hreading loopDocument 1 (Finset.card_le_card hmaps)).1 deeper, hread]
  · exact (hbuilding loopGraph dialect 1 hcard).1 deeper

end Graph

end ModuleSurface
